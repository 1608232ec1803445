import SchemaTypes.Building.Kinds
import SchemaTypes.Building.Objects
/-!
# Unions

A list of types makes one property with the checks of every member and one type check for all.
Checks apply only to values of their kind, so a member's checks never touch the others' values.
Compositions belong to the union: the class of an object member is built without them.
-/
namespace SchemaTypes.Building

/-- The kinds a list of types names, each once. -/
def unionKinds (name : String) (types : List Json) : Build (List Kind) := do
  let kinds ← types.foldlM (fun kinds type => do
    match type with
    | .string word =>
      match Kind.ofKeyword? word with
      | some kind => return if kinds.contains kind then kinds else kinds ++ [kind]
      | none => Build.refuse (.unsupportedType name word)
    | _ => Build.malformed name "type entries must be strings") []
  if kinds.isEmpty then Build.malformed name "type must not be an empty list" else return kinds

/-- Whether two validators ask for the same of the same properties. -/
def sameDemand (a b : Validator) : Bool :=
  a.priority == b.priority && a.check.fingerprint == b.check.fingerprint
    && a.check.children == b.check.children

/-- Add a member's checks other than presence and type, unless the union has them already. -/
def mergeChecks (property member : Property) : Property :=
  member.validators.toList.foldl (fun property validator =>
    if validator.check.isRequired || validator.check.isType
        || property.validators.toList.any (sameDemand · validator) then property
    else { property with validators := property.validators.add validator }) property

def member (build : Builder) (site : Site) (node : Json) (kind : Kind) : Build Property := do
  if kind = .object then
    let node := Keyword.withoutCompositions node
    let site := { site with merged := false }
    materialize build site node (← reserveFor site node)
  else ofKind build site node kind

/-- Take a member into the union. -/
def addMember (property member : Property) : Property :=
  let names := (member.label.map (·.names)).getD []
  let property := { property with
    label := some { names := ((property.label.map (·.names)).getD []) ++ names } }
  let property :=
    if member.nested.isSome then
      { property with
        nested := member.nested
        decorators := property.decorators ++ member.decorators }
    else property
  mergeChecks property member

def union (build : Builder) (site : Site) (node : Json) (types : List Json) : Build PropertyId := do
  let kinds ← unionKinds site.name types
  let property ← Build.newProperty site.name site.required
  let property ← (kinds.filter (· ≠ .null)).foldlM
    (fun property kind => return addMember property (← member build site node kind)) property
  let nullable := kinds.contains .null
  let names := (property.label.map (·.names)).getD [Kind.null.keyword]
  let label := { TypeLabel.union names with nullability := if nullable then .nullable else .unknown }
  let property := { property with label := some label }
  let property := if site.required then property.addCheck .required else property
  let allowed ← Build.allowsNull site.required
  let property := property.addCheck (.type kinds (allowed && !nullable))
  let property ← applyValueKeywords property node site.required
  Build.addProperty (← applyCompositions build site node property)

end SchemaTypes.Building
