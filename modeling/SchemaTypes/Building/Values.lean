import SchemaTypes.Building.Keywords
/-!
# Keywords every property has

Description, enumeration, constant, filters and default, in this order.  A typed enumeration is
strict: its property keeps the presence check even if it is optional.
-/
namespace SchemaTypes.Building

def describe (property : Property) (node : Json) : Property :=
  match node.stringAt? "description" with
  | some text => { property with description := some text }
  | none => property

def enumerate (property : Property) (node : Json) (required : Bool) : Build Property := do
  match ← Keyword.enumeration? property.name node with
  | none => return property
  | some values =>
    let allowed ← Build.allowsNull required
    let property := property.addCheck (.enumeration values (allowed && !values.any Json.isNull))
    if node.has "type" then
      return { property with strict := true }.stampRequired required (← read).settings.implicitNull
    else return property

def constant (property : Property) (node : Json) : Property :=
  match node.get? "const" with
  | some value => property.addCheck (.constant value)
  | none => property

/-! ## Filters -/

/-- The name and the options of one entry of `filter`. -/
def filterEntry (property : Property) : Json → Build (String × Json)
  | .string name => pure (name, .null)
  | .object members =>
    match Members.get? members "filter" with
    | some (.string name) =>
      let options := members.filter (·.1 ≠ "filter")
      pure (name, if options.isEmpty then .null else .object options)
    | _ => Build.malformed property.name "filter object needs a filter name"
  | _ => Build.malformed property.name "filter must be a name or an object"

/-- Whether a filter works on values of one of the kinds. -/
def isCompatible (filter : Filter) (kinds : List Kind) : Bool :=
  kinds.any fun kind => filter.accepts.any (·.includes kind)

def applyFilter (property : Property) (entry : Json) : Build Property := do
  let (name, options) ← filterEntry property entry
  match (← read).filters.get? name with
  | none => Build.refuse (.unknownFilter property.name name)
  | some filter =>
    if (property.declaredKinds?.map (isCompatible filter)).getD true then
      return property.addCheck (.filter name options filter.accepts filter.apply)
    else Build.refuse (.incompatibleFilter property.name name property.labelText)

def applyFilters (property : Property) (node : Json) : Build Property :=
  match node.get? "filter" with
  | none => pure property
  | some (.array entries) => entries.foldlM applyFilter property
  | some entry => applyFilter property entry

/-! ## Default -/

def isNullable (property : Property) : Bool :=
  property.label.any (·.nullability = .nullable)

/-- Whether a default is a value of the declared type, if there is one. -/
def fitsDefault (property : Property) (value : Json) : Bool :=
  match property.declaredKinds? with
  | none => true
  | some kinds => kinds.any (·.accepts value) || (value.isNull && isNullable property)

def applyDefault (property : Property) (node : Json) : Build Property :=
  match node.get? "default" with
  | none => pure property
  | some value =>
    if fitsDefault property value then pure { property with default := some value }
    else
      let kinds := property.declaredKinds?.getD []
      Build.refuse (.invalidDefault property.name ("|".intercalate (kinds.map Kind.keyword)))

def applyValueKeywords (property : Property) (node : Json) (required : Bool) : Build Property := do
  let property ← enumerate (describe property node) node required
  let property ← applyFilters (constant property node) node
  applyDefault property node

end SchemaTypes.Building
