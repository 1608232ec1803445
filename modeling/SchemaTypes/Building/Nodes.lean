import SchemaTypes.Building.References
import SchemaTypes.Building.Unions
/-!
# Nodes

The property of a node, by what the node says about its type: a reference, a single type, a list
of types, an object's keywords, or nothing, in which case a constant or an enumeration may still
tell.  `property` closes the recursion that the other modules leave open, under a bound.
-/
namespace SchemaTypes.Building

/-- The keywords every property has, and then its compositions. -/
def complement (build : Builder) (site : Site) (node : Json) (property : Property) : Build PropertyId := do
  let property ← applyValueKeywords property node site.required
  Build.addProperty (← applyCompositions build site node property)

/-- The kind that covers all values: theirs, or `number` for integers and floats together. -/
def commonKind? (values : List Json) : Option Kind :=
  match values.map Kind.ofValue with
  | [] => none
  | first :: others => others.foldlM (fun kind other =>
      if kind = other then some kind
      else match kind, other with
        | .number, .integer | .integer, .number => some .number
        | _, _ => none) first

/-- The type of an enumeration without one: the values' common kind, or hints at their kinds. -/
def inferEnumeration (property : Property) (values : List Json) : Property :=
  let values := values.filter (!·.isNull)
  match commonKind? values with
  | some kind => { property with label := some (.single kind.keyword) }
  | none =>
    property.addDecorator (.typeHint (TypeLabel.distinct (values.map fun value => (Kind.ofValue value).keyword)))

def untypedEnumeration (build : Builder) (site : Site) (node : Json) : Build PropertyId := do
  let property ← Build.presentProperty site
  let property := match ← Keyword.enumeration? site.name node with
    | some values => inferEnumeration property values
    | none => property
  complement build site node property

def untypedConstant (build : Builder) (site : Site) (node value : Json) : Build PropertyId := do
  let property ← Build.presentProperty site
  complement build site node { property with label := some (.single (Kind.ofValue value).keyword) }

def untyped (build : Builder) (site : Site) (node : Json) : Build PropertyId := do
  complement build site node (← Build.presentProperty site)

def typed (build : Builder) (site : Site) (node : Json) (word : String) : Build PropertyId := do
  match Kind.ofKeyword? word with
  | none => Build.refuse (.unsupportedType site.name word)
  | some .object => object build site node
  | some kind => complement build site node (← ofKind build site node kind)

/-- The property of a reference, under the description that stands beside it. -/
def referred (build : Builder) (site : Site) (node reference : Json) : Build PropertyId := do
  match reference with
  | .string text =>
    let id ← refer build { site with merged := false } text
    if let some description := node.stringAt? "description" then
      Build.modifyProperty id fun property => { property with description := some description }
    return id
  | _ => Build.malformed site.name "$ref must be a string"

/-- The property of a node, given how to build the properties of the nodes it leads to. -/
def nodeProperty (build : Builder) : Builder := fun site node => do
  let node ← Keyword.normalize site.name node
  match node.get? "$ref" with
  | some reference => referred build site node reference
  | none =>
    match node.get? "type" with
    | some (.string word) => typed build site node word
    | some (.array types) => union build site node types
    | some other =>
      Build.malformed site.name ("type must be a string or an array, got " ++ other.text)
    | none =>
      if Keyword.isObject node then object build site node
      else match node.get? "const" with
        | some value => untypedConstant build site node value
        | none =>
          if node.has "enum" then untypedEnumeration build site node else untyped build site node

/-- The property of a node, whose building nests at most `bound` deep. -/
def property : (bound : Nat) → Builder
  | 0 => fun _ _ => throw Halt.exhausted
  | bound + 1 => nodeProperty (property bound)

end SchemaTypes.Building
