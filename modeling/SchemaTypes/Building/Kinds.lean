import SchemaTypes.Building.Values
/-!
# Properties of a declared kind

The presence check, the type check, and the keywords of the kind: pattern and length for
strings, bounds and divisor for numbers, and what concerns the items of an array.  No format is
supported, and naming one is a fault rather than a check left out.
-/
namespace SchemaTypes.Building

/-! ## Strings -/

def refuseFormat (property : Property) (node : Json) : Build Unit :=
  match node.get? "format" with
  | none => pure ()
  | some (.string format) => Build.refuse (.unsupportedFormat property.name format)
  | some other => Build.refuse (.unsupportedFormat property.name other.text)

def addPattern (property : Property) (node : Json) : Build Property :=
  match node.get? "pattern" with
  | none => pure property
  | some (.string source) => do
    return property.addCheck (.pattern (← Keyword.pattern property.name source))
  | some _ => Build.malformed property.name "pattern must be a string"

/-- Add the check of a count, if the node has it. -/
def addCount (property : Property) (node : Json) (keyword : String) (check : Nat → Check) :
    Build Property := do
  match ← Keyword.count? property.name node keyword with
  | some n => return property.addCheck (check n)
  | none => return property

def addStringChecks (property : Property) (node : Json) : Build Property := do
  refuseFormat property node
  let property ← addPattern property node
  let property ← addCount property node "minLength" .minLength
  addCount property node "maxLength" .maxLength

/-! ## Numbers

The exclusive variant of a bound is a bound of its own if it is a number, and a flag on the
other one if it is a boolean. -/

def addBound (property : Property) (node : Json) (keyword exclusiveKeyword : String)
    (check : Number → Bool → Check) : Build Property := do
  let limit? ← Keyword.number? property.name node keyword
  let addLimit := fun (property : Property) (exclusive : Bool) =>
    match limit? with
    | some limit => property.addCheck (check limit exclusive)
    | none => property
  match node.get? exclusiveKeyword with
  | none => return addLimit property false
  | some (.bool exclusive) => return addLimit property exclusive
  | some (.number limit) => return addLimit (property.addCheck (check limit true)) false
  | some _ =>
    Build.malformed property.name (exclusiveKeyword ++ " must be a number or a boolean")

def addNumberChecks (property : Property) (node : Json) : Build Property := do
  let property ← addBound property node "minimum" "exclusiveMinimum" .minimum
  let property ← addBound property node "maximum" "exclusiveMaximum" .maximum
  match ← Keyword.number? property.name node "multipleOf" with
  | some divisor => return property.addCheck (.multipleOf divisor)
  | none => return property

/-! ## Arrays -/

/-- The checks of a tuple and of the items behind it. -/
def addTuple (build : Builder) (scope : Scope) (property : Property) (items : List Json) (node : Json) :
    Build Property := do
  let name := property.name
  let positions ← items.zipIdx.mapM fun (item, index) =>
    Build.nested build scope ("tuple item #" ++ toString index ++ " of array " ++ name) item
  let property := property.addCheck (.tuple positions)
  match node.get? "additionalItems" with
  | none | some (.bool true) => return property
  | some (.bool false) => return property.addCheck (.noAdditionalItems positions.length)
  | some (.object members) =>
    let item ← Build.nested build scope ("additional item of array " ++ name) (.object members)
    return property.addCheck (.additionalItems positions.length item)
  | some _ => Build.malformed name "additionalItems must be a boolean or a schema"

def addItems (build : Builder) (scope : Scope) (property : Property) (node : Json) : Build Property := do
  match node.get? "items" with
  | none => return property
  | some (.array items) => addTuple build scope property items node
  | some item =>
    let item ← Build.nested build scope ("item of array " ++ property.name) item
    return property.addCheck (.items item)

def addContains (build : Builder) (scope : Scope) (property : Property) (node : Json) :
    Build Property := do
  match node.get? "contains" with
  | none => return property
  | some item =>
    let item ← Build.nested build scope ("contained item of array " ++ property.name) item
    return property.addCheck (.contains item)

def addArrayChecks (build : Builder) (scope : Scope) (property : Property) (node : Json) :
    Build Property := do
  let property ← addCount property node "minItems" .minItems
  let property ← addCount property node "maxItems" .maxItems
  let unique ← Keyword.flag property.name node "uniqueItems"
  let property := if unique then property.addCheck .uniqueItems else property
  let property ← addItems build scope property node
  addContains build scope property node

/-! ## All kinds -/

def labelOf (kind : Kind) : TypeLabel :=
  { names := [kind.keyword], nullability := if kind = .null then .nullable else .unknown }

def addKindChecks (build : Builder) (scope : Scope) (kind : Kind) (property : Property) (node : Json) :
    Build Property :=
  match kind with
  | .string => addStringChecks property node
  | .integer | .number => addNumberChecks property node
  | .array => addArrayChecks build scope property node
  | .null | .boolean | .object => pure property

/-- A property of one kind, before the keywords every property has. -/
def ofKind (build : Builder) (site : Site) (node : Json) (kind : Kind) : Build Property := do
  let property ← Build.presentProperty site
  let allowed ← Build.allowsNull site.required
  let settles := allowed && kind != .null
  let property := { property with label := some (labelOf kind) }.addCheck (.type [kind] settles)
  addKindChecks build site.scope kind property node

end SchemaTypes.Building
