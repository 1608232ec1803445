import SchemaTypes.Building.Session
import SchemaTypes.Json.Equality
/-!
# Keywords of a node

Reading the keywords of a schema node, each with the fault of a value it cannot have.
-/
namespace SchemaTypes.Keyword

/-- Whether a node describes an object: by its type, or without a type by an object's keywords. -/
def isObject (node : Json) : Bool :=
  match node.get? "type" with
  | some (.string name) => name = "object"
  | some _ => false
  | none => node.has "properties" || node.has "patternProperties" || node.has "additionalProperties"

/-- A boolean as the schema it abbreviates: everything, or nothing. -/
def ofBool : Bool → Json
  | true => .object []
  | false => .object [("not", .object [])]

def normalize (name : String) : Json → Build Json
  | .object members => pure (.object members)
  | .bool value => pure (ofBool value)
  | other =>
    Build.malformed name ("a schema must be an object or a boolean, got " ++ other.text)

/-- A schema on a whole object, `type` filled in. -/
def withObjectType : Json → Json
  | .object members =>
    if Members.has members "type" then .object members
    else .object (Members.insert members "type" (.string "object"))
  | .bool false => .object [("type", .string "object"), ("not", .object [])]
  | .bool true => .object [("type", .string "object")]
  | other => other

/-- A branch with the type of the node it belongs to, unless it has its own or is a reference. -/
def inheritType (node branch : Json) : Json :=
  let branch := match branch with
    | .bool value => ofBool value
    | other => other
  match node.get? "type", branch with
  | some type, .object members =>
    if Members.has members "type" || Members.has members "$ref" then .object members
    else .object (Members.insert members "type" type)
  | _, _ => branch

def compositionWords : List String := ["allOf", "anyOf", "oneOf", "not", "if", "then", "else"]

/-- The node without compositions and conditionals. -/
def withoutCompositions : Json → Json
  | .object members => .object (members.filter fun member => !compositionWords.contains member.1)
  | other => other

/-- A count such as `minLength`. -/
def count? (name : String) (node : Json) (keyword : String) : Build (Option Nat) :=
  match node.get? keyword with
  | none => pure none
  | some value =>
    match value.count? with
    | some n => pure (some n)
    | none => Build.malformed name (keyword ++ " must be a non-negative integer")

/-- A number such as `minimum`. -/
def number? (name : String) (node : Json) (keyword : String) : Build (Option Number) :=
  match node.get? keyword with
  | none => pure none
  | some (.number n) => pure (some n)
  | some _ => Build.malformed name (keyword ++ " must be a number")

/-- A flag such as `uniqueItems`, off if it is absent. -/
def flag (name : String) (node : Json) (keyword : String) : Build Bool :=
  match node.get? keyword with
  | none => pure false
  | some (.bool value) => pure value
  | some _ => Build.malformed name (keyword ++ " must be a boolean")

/-- An object such as `properties`. -/
def members? (name : String) (node : Json) (keyword : String) : Build (Option Members) :=
  match node.get? keyword with
  | none => pure none
  | some (.object members) => pure (some members)
  | some _ => Build.malformed name (keyword ++ " must be an object")

/-- Strings only, or a fault. -/
def strings (name reason : String) (values : List Json) : Build (List String) :=
  values.mapM fun value =>
    match value with
    | .string text => pure text
    | _ => Build.malformed name reason

/-- The names listed in `required`, in order. -/
def requiredNames (name : String) (node : Json) : Build (List String) :=
  match node.get? "required" with
  | none => pure []
  | some (.array names) => strings name "required entries must be strings" names
  | some _ => Build.malformed name "required must be an array"

def pattern (name source : String) : Build Pattern :=
  match Pattern.ofSource source with
  | .ok pattern => pure pattern
  | .error fault => Build.refuse (.invalidPattern name source fault)

/-- The values of `enum` without repetitions. -/
def enumeration? (name : String) (node : Json) : Build (Option (List Json)) :=
  match node.get? "enum" with
  | none => pure none
  | some (.array []) => Build.refuse (.emptyEnum name)
  | some (.array values) => pure (some (Json.distinct values))
  | some _ => Build.malformed name "enum must be an array"

/-- The branches of a combinator, if the node has it. -/
def branches? (name : String) (node : Json) (combinator : Combinator) : Build (Option (List Json)) :=
  match combinator, node.get? combinator.keyword with
  | _, none => pure none
  | .not, some branch => pure (some [branch])
  | _, some (.array branches) => pure (some branches)
  | _, some _ => Build.malformed name (combinator.keyword ++ " must be an array")

end SchemaTypes.Keyword
