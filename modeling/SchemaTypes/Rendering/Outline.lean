import SchemaTypes.Check.Description
import SchemaTypes.Types.Reach
/-!
# Outline of a type

Plain text for reading: the class, the types it uses, its properties with their validators in
the order they run, nested properties indented below the check that owns them, and the checks
on the object last.  A property met again on its own way down is marked recursive.
-/
namespace SchemaTypes.Outline

def indent (depth : Nat) : String := String.ofList (List.replicate (2 * depth) ' ')

/-- A check as `describe` has it, with class names for ids. -/
def checkLabel (graph : Graph) : Check → String
  | .items _ => "items"
  | .additionalItems offset _ => "additional items from " ++ toString offset
  | .contains _ => "contains"
  | .instanceOf id => "instance of " ++ graph.className id
  | .additionalProperties .. => "additional properties"
  | .patternProperty _ pattern key _ => "pattern properties /" ++ pattern.source ++ "/ as " ++ key
  | .propertyNames .. => "property names"
  | check => check.describe

def decoratorLabel (graph : Graph) : Decorator → String
  | .instantiates id => "instantiates " ++ graph.className id
  | .typeHint names => "type hint " ++ "|".intercalate names
  | .transferred keyword => "transferred from " ++ keyword

/-- A validator's line and, below it, its children, rendered one level deeper. -/
def validatorLines (graph : Graph) (depth : Nat) (child : PropertyId → List String)
    (validator : Validator) : List String :=
  (indent depth ++ "[" ++ toString validator.priority ++ "] " ++ checkLabel graph validator.check)
    :: validator.check.children.flatMap child

def headLine (depth : Nat) (property : Property) : String :=
  indent depth ++ property.name ++ ": " ++ ((property.label.map (·.text)).getD "mixed")
    ++ (if property.required then ", required" else "")
    ++ (match property.default with
        | some value => ", default " ++ value.text
        | none => "")

def propertyLines (graph : Graph) (unopened : List PropertyId) (depth : Nat) (id : PropertyId) :
    List String :=
  let property := graph.property id
  headLine depth property ::
    if _h : id ∈ unopened then
      (property.description.toList.map fun text => indent depth ++ "  // " ++ text)
        ++ (property.decorators.map fun decorator =>
            indent depth ++ "  @" ++ decoratorLabel graph decorator)
        ++ property.validators.toList.flatMap
            (validatorLines graph (depth + 1) fun child =>
              propertyLines graph (unopened.erase id) (depth + 2) child)
    else [indent depth ++ "  (recursive)"]
termination_by unopened.length
decreasing_by
  have := List.length_erase_of_mem _h
  have := List.length_pos_of_mem _h
  omega

def typeLines (graph : Graph) (id : TypeId) : List String :=
  let type := graph.type id
  let property := propertyLines graph graph.propertyIds
  ("class " ++ type.name.qualified)
    :: (type.description.toList.map fun text => "  // " ++ text)
    ++ ((graph.usedTypes id).map fun name => "  uses " ++ name)
    ++ type.properties.flatMap (property 1)
    ++ (if type.validators.isEmpty then []
        else "  object:" :: type.validators.toList.flatMap (validatorLines graph 2 (property 3)))

/-- The outline, a line break after every line. -/
def render (graph : Graph) (id : TypeId) : String :=
  String.join ((typeLines graph id).map (· ++ "\n"))

end SchemaTypes.Outline
