import SchemaTypes.Evaluation.Verdict
import SchemaTypes.Json.Equality
import SchemaTypes.Types.Graph
/-!
# Running one check

A check applies to values of its kind and passes all others.  `inspect` runs the checks that
leave the value alone, `transform` also those that may change it: filters, and what judges
items or members.
-/
namespace SchemaTypes.Evaluation

/-! ## Compositions -/

/-- The details of a failed composition, one per branch. -/
def branchDetails (outcomes : List Outcome) : List (Detail Violation) :=
  outcomes.zipIdx.map fun (outcome, index) =>
    { label := "Composition element #" ++ toString (index + 1) ++ ": "
        ++ (if outcome.isValid then "Valid" else "Failed")
      passed := outcome.isValid
      violations := outcome.violations }

def compositionVerdict (combinator : Combinator) (outcomes : List Outcome) : Verdict :=
  let matched := (outcomes.filter Outcome.isValid).length
  if combinator.isSatisfied matched outcomes.length then .pass
  else .fail { runtime := [("matched", .ofNat matched)], details := branchDetails outcomes }

/-- Judge the whole value by every branch. -/
def judgeBranches (judge : Judge) (branches : List Branch) (value : Json) : Option (List Outcome) :=
  branches.mapM fun branch => judge branch.property (some value)

/-- Judge the condition, and then what follows from the result, if anything does. -/
def judgeConditional (judge : Judge) (condition : PropertyId)
    (consequent alternative : Option PropertyId) (value : Json) : Option Verdict := do
  let premise ← judge condition (some value)
  match if premise.isValid then consequent else alternative with
  | none => return .pass
  | some consequence =>
    let outcome ← judge consequence (some value)
    if outcome.isValid then return .pass
    else
      let premiseDetail : Detail Violation :=
        { label := "If: " ++ (if premise.isValid then "Valid" else "Failed")
          passed := premise.isValid
          violations := premise.violations }
      let label := if premise.isValid then "Then: Failed" else "Else: Failed"
      return .ofDetails [premiseDetail, .failed label outcome.violations]

/-! ## Members -/

/-- Whether a name is neither declared nor matched by a pattern. -/
def isAdditional (known : List String) (patterns : List Pattern) (name : String) : Bool :=
  !known.contains name && !patterns.any (·.isMatch name)

/-- Judge members by one property. -/
def judgeMembers (judge : Judge) (mode : Mode) (label : String) (property : PropertyId)
    (members : Members) : Option Verdict := do
  let parts := members.map fun (name, value) => (⟨label ++ " " ++ name, property, some value⟩ : Part)
  return .ofDetails (← judge.survey mode parts).details

/-- Fail with those names under `parameter`, if there are any. -/
def rejectNames (parameter : String) (names : List String) : Verdict :=
  if names.isEmpty then .pass else .failWith parameter (.ofStrings names)

/-- Whether some item is valid; items behind the first valid one are not judged. -/
def anyValid (judge : Judge) (item : PropertyId) : List Json → Option Bool
  | [] => some false
  | value :: rest => do
    if (← judge item (some value)).isValid then return true
    else anyValid judge item rest

/-! ## Checks that leave the value alone -/

def isWithin (order : Ordering) (side : Ordering) (exclusive : Bool) : Bool :=
  order = side || (order = .eq && !exclusive)

/-- Checks of a property that apply to null, too, and what they make of null if it counts as
absent. -/
def settlesNull : Check → Json → Bool
  | .type _ true, .null | .enumeration _ true, .null | .implicitNull true, .null => true
  | _, _ => false

/-- A check of an object. -/
def inspectObject (judge : Judge) (mode : Mode) (members : Members) : Check → Option Verdict
  | .noAdditionalProperties _ known patterns =>
    some (rejectNames "properties" (members.names.filter (isAdditional known patterns)))
  | .additionalProperties _ known patterns property =>
    judgeMembers judge mode "Invalid additional property" property
      (members.filter fun member => isAdditional known patterns member.1)
  | .patternProperty _ regex _ property =>
    judgeMembers judge mode "Invalid pattern property" property
      (members.filter fun member => regex.isMatch member.1)
  | .propertyNames _ property =>
    judgeMembers judge mode "Invalid property name" property
      (members.map fun member => (member.1, .string member.1))
  | .minProperties count => some (.ofBool (count ≤ members.length))
  | .maxProperties count => some (.ofBool (members.length ≤ count))
  | .propertyDependency trigger dependants =>
    if members.has trigger then some (rejectNames "missing" (dependants.filter (!members.has ·)))
    else some .pass
  | .schemaDependency trigger property => do
    if members.has trigger then
      let outcome ← judge property (some (.object members))
      if outcome.isValid then return .pass
      else return .ofDetails [.failed ("Dependency of " ++ trigger) outcome.violations]
    else return .pass
  | _ => some .pass

/-- A check of an array. -/
def inspectArray (judge : Judge) (items : List Json) : Check → Option Verdict
  | .minItems count => some (.ofBool (count ≤ items.length))
  | .maxItems count => some (.ofBool (items.length ≤ count))
  | .uniqueItems => some (.ofBool (Json.allDistinct items))
  | .noAdditionalItems expected =>
    if expected < items.length then some (.failWith "actual" (.ofNat items.length)) else some .pass
  | .contains item => do return .ofBool (← anyValid judge item items)
  | _ => some .pass

def inspectNumber (value : Number) : Check → Verdict
  | .minimum limit exclusive => .ofBool (isWithin (value.compare limit) .gt exclusive)
  | .maximum limit exclusive => .ofBool (isWithin (value.compare limit) .lt exclusive)
  | .multipleOf divisor => .ofBool (value.isMultipleOf divisor)
  | _ => .pass

def inspectString (text : String) : Check → Verdict
  | .pattern regex => .ofBool (regex.isMatch text)
  | .minLength length => .ofBool (length ≤ text.length)
  | .maxLength length => .ofBool (text.length ≤ length)
  | _ => .pass

/-- A check that applies to values of every kind, or else the check of the value's kind. -/
def inspect (judge : Judge) (mode : Mode) (check : Check) (value : Json) : Option Verdict :=
  if settlesNull check value then some .settle
  else match check with
    | .type kinds _ =>
      if kinds.any (·.accepts value) then some .pass
      else some (.failWith "actual" (.string (Kind.ofValue value).keyword))
    | .enumeration values _ => some (.ofBool (values.any (·.equal value)))
    | .constant expected => some (.ofBool (expected.equal value))
    | .composition combinator branches _ => do
      return compositionVerdict combinator (← judgeBranches judge branches value)
    | .conditional condition consequent alternative _ =>
      judgeConditional judge condition consequent alternative value
    | .custom _ accepts => some (.ofBool (accepts value))
    | check => match value with
      | .number n => some (inspectNumber n check)
      | .string text => some (inspectString text check)
      | .array items => inspectArray judge items check
      | .object members => inspectObject judge mode members check
      | .null | .bool _ => some .pass

/-! ## Checks that may change the value -/

/-- Judge the items from `offset` on by one property. -/
def transformItems (judge : Judge) (mode : Mode) (label : String) (item : PropertyId) (offset : Nat)
    (items : List Json) : Option (Verdict × Json) := do
  let parts := (items.drop offset).zipIdx.map fun (value, index) =>
    (⟨label ++ " #" ++ toString (offset + index), item, some value⟩ : Part)
  let survey ← judge.survey mode parts
  return (.ofDetails survey.details,
    .array (items.take offset ++ overwrite (items.drop offset) survey.values))

/-- Judge each position of a tuple, also one where the array has no item. -/
def transformTuple (judge : Judge) (mode : Mode) (positions : List PropertyId) (items : List Json) :
    Option (Verdict × Json) := do
  let parts := positions.zipIdx.map fun (position, index) =>
    (⟨"Invalid tuple item #" ++ toString index, position, items[index]?⟩ : Part)
  let survey ← judge.survey mode parts
  return (.ofDetails survey.details, .array (overwrite items survey.values))

/-- Run a filter.  A value it fails on stays as it is. -/
def transformByFilter (accepts : List Kind) (apply : FilterFunction) (options value : Json) :
    Verdict × Json :=
  if accepts.any (·.accepts value) then
    match apply value options with
    | .ok result => (.pass, result)
    | .error reason => (.failWith "reason" (.string reason), value)
  else (.pass, value)

end SchemaTypes.Evaluation
