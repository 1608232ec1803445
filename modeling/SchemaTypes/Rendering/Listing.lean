import SchemaTypes.Check.Description
import SchemaTypes.Check.Message
import SchemaTypes.Types.Reach
/-!
# Listing of a type

The same information as JSON, for tools.  Besides its own properties a listing holds every
property its checks reach (`nestedProperties`), by ascending id, so each child that is listed
anywhere is listed itself.
-/
namespace SchemaTypes.Listing

def ofId (id : PropertyId) : Json := .ofNat id.index

def optional (name : String) (value : Option Json) : Members := (value.map ((name, ·))).toList

def ofValidator (validator : Validator) : Json :=
  .object [
    ("check", .string validator.check.describe),
    ("priority", .ofNat validator.priority),
    ("kind", .string validator.check.failureKind.name),
    ("template", .string validator.check.template.text),
    ("params", .object validator.check.parameters)]

def ofValidators (validators : Validators) : Json := .array (validators.toList.map ofValidator)

def ofDecorator : Decorator → Json
  | .instantiates id =>
    .object [("decorator", .string "object-instantiation"), ("schema", .ofNat id.index)]
  | .typeHint names => .object [("decorator", .string "type-hint"), ("names", .ofStrings names)]
  | .transferred keyword =>
    .object [("decorator", .string "transferred"), ("keyword", .string keyword)]

def ofLabel (label : TypeLabel) : Json :=
  .object [
    ("names", .ofStrings label.names),
    ("nullability", .string label.nullability.name)]

def ofProperty (graph : Graph) (id : PropertyId) : Json :=
  let property := graph.property id
  let children := graph.children id
  .object ([
      ("id", ofId id),
      ("name", .string property.name),
      ("identifier", .string property.identifier),
      ("type", (property.label.map ofLabel).getD .null),
      ("required", .bool property.required)]
    ++ optional "default" property.default
    ++ optional "description" (property.description.map .string)
    ++ (if property.decorators.isEmpty then []
        else [("decorators", .array (property.decorators.map ofDecorator))])
    ++ [("validators", ofValidators property.validators)]
    ++ (if children.isEmpty then [] else [("children", .array (children.map ofId))]))

/-- The properties reached through checks that are not the type's own, by ascending id. -/
def nestedProperties (graph : Graph) (type : ObjectType) : List PropertyId :=
  let nested := (graph.reachableFrom type).filter (!type.properties.contains ·)
  (nested.map (·.index)).mergeSort.map PropertyId.mk

def ofType (graph : Graph) (id : TypeId) : Json :=
  let type := graph.type id
  .object ([
      ("namespace", .string type.name.namespaceName),
      ("class_name", .string type.name.className)]
    ++ optional "description" (type.description.map .string)
    ++ [
      ("uses", .ofStrings (graph.usedTypes id)),
      ("properties", .array (type.properties.map (ofProperty graph))),
      ("base_validators", ofValidators type.validators),
      ("nested_properties", .array ((nestedProperties graph type).map (ofProperty graph)))])

def render (graph : Graph) (id : TypeId) : String := (ofType graph id).indentedText

end SchemaTypes.Listing
