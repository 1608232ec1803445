import SchemaTypes.Check.Description
import SchemaTypes.Digest.Blake3
import SchemaTypes.Types.Graph
/-!
# Signatures

Two types are taken for duplicates if their canonical texts hash alike.  The text spells out
properties and checks, down to the children of checks, and leaves out class names, descriptions
and ids: a type is mentioned by the id it is generated under, or as `self`.

Checks may lead back to a property on the way down.  `unopened` holds the properties that the way
has not passed; one that it has is written as a cycle, so the text of each is finite.
-/
namespace SchemaTypes.Graph

def typeText (graph : Graph) (current id : TypeId) : String :=
  let id := graph.canonical id
  if id = current then "schema:self" else "schema:" ++ toString id.index

/-- Whether a check's null flag is part of its meaning. -/
def nullFlag? : Check → Option Bool
  | .type _ settles | .enumeration _ settles => some settles
  | _ => none

/-- The text of a validator, given that of a child. -/
def validatorText (graph : Graph) (current : TypeId) (child : PropertyId → String)
    (validator : Validator) : String :=
  let check := validator.check
  "(" ++ toString validator.priority ++ "|" ++ check.fingerprint
    ++ (match nullFlag? check with
        | some flag => "|null=" ++ toString flag
        | none => "")
    ++ String.join (check.types.map fun id => "|" ++ graph.typeText current id)
    ++ String.join (check.children.map fun id => "\x7b" ++ child id ++ "\x7d")
    ++ ")"

def propertyText (graph : Graph) (current : TypeId) (unopened : List PropertyId) (id : PropertyId) :
    String :=
  if _h : id ∈ unopened then
    let property := graph.property id
    property.name ++ ":" ++ toString property.required ++ ":" ++ property.labelText ++ ":"
      ++ ((property.default.map Json.text).getD "") ++ ":"
      ++ ((property.nested.map (graph.typeText current)).getD "") ++ "["
      ++ String.join (property.validators.toList.map
          (graph.validatorText current fun child =>
            propertyText graph current (unopened.erase id) child))
      ++ "]"
  else "<cycle>"
termination_by unopened.length
decreasing_by
  have := List.length_erase_of_mem _h
  have := List.length_pos_of_mem _h
  omega

/-- What is hashed for a type as it stands. -/
def canonicalText (graph : Graph) (id : TypeId) : String :=
  let current := graph.canonical id
  let type := graph.entry id
  let property := graph.propertyText current graph.propertyIds
  String.join (type.properties.map fun id => property id ++ "\n") ++ "base:"
    ++ String.join (type.validators.toList.map (graph.validatorText current property))

def signature (graph : Graph) (id : TypeId) : String := Blake3.hex (graph.canonicalText id)

end SchemaTypes.Graph
