import SchemaTypes.Evaluation.Objects
/-!
# Evaluation

A finished type is run against a value: the validators of a property in order, each seeing the
value its predecessors leave, until one settles the value or, failing fast, one fails.

Properties judge parts of a value by other properties.  `property` closes this recursion under a
bound on how deep judging nests, and answers none if the bound is too small.  Evaluation tries
ever larger bounds (`deepen`).  It has no end where judging has none: where a property comes back
to itself with the value it started from, or with one that defaults have made larger.
-/
namespace SchemaTypes.Evaluation

/-- Run one check on a value that is there. -/
def transform (graph : Graph) (mode : Mode) (judge : Judge) (check : Check) (value : Json) :
    Option (Verdict × Json) :=
  match check, value with
  | .filter _ options accepts apply, value => some (transformByFilter accepts apply options value)
  | .items item, .array items => transformItems judge mode "Invalid item" item 0 items
  | .additionalItems offset item, .array items =>
    transformItems judge mode "Invalid additional item" item offset items
  | .tuple positions, .array items => transformTuple judge mode positions items
  | .instanceOf type, .object members => do
    let result ← evaluateObject graph mode judge type members
    let details :=
      if result.violations.isEmpty then []
      else [Detail.failed (graph.className type) result.violations]
    return (.ofDetails details, .object result.model)
  | check, value => do return (← inspect judge mode check value, value)

/-- Run one check.  Without a value only the presence check fails. -/
def runCheck (graph : Graph) (mode : Mode) (judge : Judge) (check : Check) :
    Option Json → Option (Verdict × Option Json)
  | none => some (if check.isRequired then .fail {} else .pass, none)
  | some value => do
    let (verdict, value) ← transform graph mode judge check value
    return (verdict, some value)

def runValidators (graph : Graph) (mode : Mode) (judge : Judge) (name : String) :
    List Validator → Option Json → Option Outcome
  | [], value => some { value }
  | validator :: rest, value => do
    let (verdict, value) ← runCheck graph mode judge validator.check value
    match verdict with
    | .pass => runValidators graph mode judge name rest value
    | .settle => return { value }
    | .fail failure =>
      let violation := failure.violation validator.check name
      if mode = .failFast then return { value, violations := [violation] }
      else
        let others ← runValidators graph mode judge name rest value
        return { others with violations := violation :: others.violations }

/-- The judge that nests at most `bound` deep. -/
def property (graph : Graph) (mode : Mode) : (bound : Nat) → Judge
  | 0 => fun _ _ => none
  | bound + 1 => fun id value =>
    let entry := graph.property id
    runValidators graph mode (property graph mode bound) entry.name entry.validators.toList value

/-! ## A value against a type -/

/-- The populated object and what is wrong with the value. -/
structure Result where
  model : Json
  report : Report

def Result.isValid (result : Result) : Bool := result.report.isEmpty

/-- What is evaluated of a value that is no object. -/
def notAnObject (className : String) (value : Json) : Result where
  model := value
  report :=
    let failure : Failure := { runtime := [("actual", .string (Kind.ofValue value).keyword)] }
    [failure.violation (.type [.object] false) className]

/-- Evaluate a value against a type with a given bound. -/
def run (graph : Graph) (mode : Mode) (bound : Nat) (type : TypeId) : Json → Option Result
  | .object members => do
    let result ← evaluateObject graph mode (property graph mode bound) type members
    return { model := .object result.model, report := result.violations }
  | value => some (notAnObject (graph.className type) value)

/-! ## Bounds -/

section
variable {α : Type} (attempt : Nat → Option α)

/-- Try under larger and larger bounds, until one is enough. -/
def deepen (bound : Nat) : Option α :=
  let found := attempt bound
  if found.isSome then found
  else by
    -- Unlike a plain call, `apply` leaves no source position in the term.
    apply deepen
    exact 2 * bound + 1
partial_fixpoint

end

/-- A bound to start from.  If judging comes to a smaller part before it comes back to a property,
and no check makes the value deeper, it is enough for values that deep. -/
def boundFor (graph : Graph) (depth : Nat) : Nat := (graph.properties.size + 1) * (depth + 2)

end Evaluation

namespace Graph

/-- Evaluate a value against a type. -/
def evaluate (graph : Graph) (mode : Mode) (type : TypeId) (value : Json) : Option Evaluation.Result :=
  Evaluation.deepen (fun bound => Evaluation.run graph mode bound type value)
    (Evaluation.boundFor graph value.depth)

/-- Judge a value, or the absence of one, by a property. -/
def evaluateProperty (graph : Graph) (mode : Mode) (id : PropertyId) (value : Option Json) :
    Option Outcome :=
  Evaluation.deepen (fun bound => Evaluation.property graph mode bound id value)
    (Evaluation.boundFor graph ((value.map Json.depth).getD 0))

end Graph
end SchemaTypes
