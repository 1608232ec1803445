import SchemaTypes.Evaluation.Checks
/-!
# Evaluating an object

The model starts as a copy of the input.  Every property of the type is judged by the member of
its name and puts its value, or for a missing one its default, into the model.  The checks on the
object follow; they see the input, and a composition then copies what its passing branches
populate into the model (`populate`).
-/
namespace SchemaTypes.Evaluation

/-! ## Populating from branches -/

/-- Copy the populated members of a passing branch into the model. -/
def takeOver (model : Members) (affected : List String) (output : Option Json) : Members :=
  affected.foldl (fun model name =>
    match output.bind (·.get? name) with
    | some value => model.insert name value
    | none => model) model

/-- Reset the members of a failing branch that are there, unless a passing one populates them. -/
def reset (model : Members) (affected populated : List String) : Members :=
  affected.foldl (fun model name =>
    if !populated.contains name && model.has name then model.insert name .null else model) model

/-- Update the model after a composition: passing branches first, then failing ones. -/
def populate (model : Members) (results : List (Branch × Outcome)) : Members :=
  let passing := results.filter (·.2.isValid)
  let failing := results.filter (!·.2.isValid)
  let populated := passing.flatMap (·.1.affected)
  let model := passing.foldl (fun model (branch, outcome) => takeOver model branch.affected outcome.value) model
  failing.foldl (fun model (branch, _) => reset model branch.affected populated) model

/-! ## Properties and checks of a type -/

/-- A model and the violations found while making it. -/
structure Populated where
  model : Members
  violations : List Violation := []

/-- What an outcome puts into the model: its value, or the default. -/
def contribution (property : Property) (outcome : Outcome) : Option Json :=
  outcome.value <|> property.default

def evaluateProperties (graph : Graph) (mode : Mode) (judge : Judge) (input : Members) :
    List PropertyId → Members → Option Populated
  | [], model => some { model }
  | id :: rest, model => do
    let property := graph.property id
    let outcome ← judge id (input.get? property.name)
    let model := match contribution property outcome with
      | some value => model.insert property.name value
      | none => model
    if mode.stopsAt outcome.violations then return { model, violations := outcome.violations }
    else
      let others ← evaluateProperties graph mode judge input rest model
      return { others with violations := outcome.violations ++ others.violations }

/-- Run one check on an object; a composition may change the model. -/
def runTypeCheck (mode : Mode) (judge : Judge) (input model : Members) :
    Check → Option (Verdict × Members)
  | .composition combinator branches true => do
    let outcomes ← judgeBranches judge branches (.object input)
    return (compositionVerdict combinator outcomes, populate model (branches.zip outcomes))
  | check => do return (← inspect judge mode check (.object input), model)

def evaluateTypeChecks (mode : Mode) (judge : Judge) (className : String) (input : Members) :
    List Validator → Members → Option Populated
  | [], model => some { model }
  | validator :: rest, model => do
    let (verdict, model) ← runTypeCheck mode judge input model validator.check
    match verdict with
    | .pass | .settle => evaluateTypeChecks mode judge className input rest model
    | .fail failure =>
      let violation := failure.violation validator.check className
      if mode = .failFast then return { model, violations := [violation] }
      else
        let others ← evaluateTypeChecks mode judge className input rest model
        return { others with violations := violation :: others.violations }

/-- The properties of a type, and then its checks. -/
def evaluateObject (graph : Graph) (mode : Mode) (judge : Judge) (id : TypeId) (input : Members) :
    Option Populated := do
  let type := graph.type id
  let first ← evaluateProperties graph mode judge input type.properties input
  if mode.stopsAt first.violations then return first
  else
    let second ← evaluateTypeChecks mode judge type.name.className input type.validators.toList
      first.model
    return { second with violations := first.violations ++ second.violations }

end SchemaTypes.Evaluation
