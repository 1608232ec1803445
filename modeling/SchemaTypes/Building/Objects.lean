import SchemaTypes.Building.Compositions
/-!
# Types of object nodes

An object node gets a type of its own: the name is reserved first, then properties and checks on
the object are filled in, and then the finished type is compared with the earlier ones by
signature (`finish`).
-/
namespace SchemaTypes.Building

/-! ## Properties that hold an object -/

/-- The property of an instance of a type. -/
def instanceProperty (name : String) (type : TypeId) (required : Bool) : Build Property := do
  let className := (← Build.graph).className type
  let property ← Build.newProperty name required
  let allowed ← Build.allowsNull required
  let property := { property with label := some (.single className), nested := some type }
  let property := property.addDecorator (.instantiates type)
  let property := if required then property.addCheck .required else property
  return (property.addCheck (.type [.object] allowed)).addCheck (.instanceOf type)

/-! ## Finished types -/

/-- Record the signature of a finished type.  A duplicate is redirected to the first type of the
signature, unless it is the root of a document; answers the type to refer to from now on. -/
def finish (type : TypeId) : Build TypeId := do
  let session ← get
  let graph := session.graph
  let signature := graph.signature type
  Build.modifyType type fun entry => { entry with signature := some signature }
  match session.signatures.lookup signature with
  | some existing =>
    let existing := graph.canonical existing
    if (graph.entry type).isRoot || existing = type then return type
    else
      Build.modifyType type fun entry => { entry with redirect := some existing }
      Build.notify (.typeRedirected (graph.entry type).name.qualified (graph.entry existing).name.qualified)
      return existing
  | none =>
    modify fun session => { session with signatures := session.signatures ++ [(signature, type)] }
    return type

/-! ## Filling a type in -/

/-- Declared properties in order, then required names nobody declared, as properties of any type. -/
def addProperties (build : Builder) (scope : Scope) (type : TypeId) (node : Json) : Build Unit := do
  let required ← Keyword.requiredNames scope.className node
  let declared := (← Keyword.members? scope.className node "properties").getD []
  for (name, inner) in declared do
    let id ← build { scope, name, required := required.contains name } inner
    Build.addTypeProperty type id
  for name in required.filter (!Members.has declared ·) do
    let id ← build { scope, name, required := true } (.object [])
    Build.addTypeProperty type id

/-- Add the check of one pattern property, given the patterns and access keys before it. -/
def addPatternProperty (build : Builder) (scope : Scope) (type : TypeId)
    (before : List (Pattern × String)) (member : String × Json) : Build (List (Pattern × String)) := do
  let (source, node) := member
  let pattern ← Keyword.pattern scope.className source
  let key := (node.stringAt? "key").getD source
  if before.any (·.2 = key) then Build.refuse (.duplicatePatternKey scope.className key)
  let property ← Build.nested build scope ("pattern property " ++ source) node
  Build.addTypeCheck type (.patternProperty scope.className pattern key property)
  return before ++ [(pattern, key)]

/-- `patternProperties`, and `additionalProperties` for what neither they nor the declared
properties cover. -/
def addOpenProperties (build : Builder) (scope : Scope) (type : TypeId) (node : Json) : Build Unit := do
  let graph ← Build.graph
  let known := (graph.entry type).properties.map fun id => (graph.property id).name
  let patternMembers := (← Keyword.members? scope.className node "patternProperties").getD []
  let patterns := (← patternMembers.foldlM (addPatternProperty build scope type) []).map (·.1)
  match node.get? "additionalProperties" with
  | none | some (.bool true) => return ()
  | some (.bool false) =>
    Build.addTypeCheck type (.noAdditionalProperties scope.className known patterns)
  | some (.object members) =>
    let property ← Build.nested build scope "additional property" (.object members)
    Build.addTypeCheck type (.additionalProperties scope.className known patterns property)
  | some _ =>
    Build.malformed scope.className "additionalProperties must be a boolean or a schema"

def addPropertyNames (build : Builder) (scope : Scope) (type : TypeId) (node : Json) : Build Unit := do
  match node.get? "propertyNames" with
  | none => return ()
  | some names =>
    let property ← Build.nested build scope "property name" names
    Build.addTypeCheck type (.propertyNames scope.className property)

def addPropertyCounts (scope : Scope) (type : TypeId) (node : Json) : Build Unit := do
  if let some count ← Keyword.count? scope.className node "minProperties" then
    Build.addTypeCheck type (.minProperties count)
  if let some count ← Keyword.count? scope.className node "maxProperties" then
    Build.addTypeCheck type (.maxProperties count)

/-- A dependency: on names if it is a list, on a schema of the whole object otherwise. -/
def addDependency (build : Builder) (scope : Scope) (type : TypeId) (member : String × Json) :
    Build Unit := do
  let (trigger, dependency) := member
  match dependency with
  | .array names =>
    let dependants ← Keyword.strings scope.className "property dependencies must be strings" names
    Build.addTypeCheck type (.propertyDependency trigger dependants)
  | .bool true => return ()
  | .object _ | .bool false =>
    let property ← Build.nested build scope ("dependency of " ++ trigger)
      (Keyword.withObjectType dependency)
    Build.addTypeCheck type (.schemaDependency trigger property)
  | _ => Build.malformed scope.className ("invalid dependency for " ++ trigger)

def addDependencies (build : Builder) (scope : Scope) (type : TypeId) (node : Json) (keyword : String) :
    Build Unit := do
  match ← Keyword.members? scope.className node keyword with
  | some dependencies => dependencies.forM (addDependency build scope type)
  | none => return ()

def dependencyWords : List String := ["dependencies", "dependentRequired", "dependentSchemas"]

/-- Fill a reserved type in from its node.  The scope's class is the type's own. -/
def fill (build : Builder) (scope : Scope) (type : TypeId) (node : Json) : Build Unit := do
  if let some text := node.stringAt? "description" then
    Build.modifyType type fun entry => { entry with description := some text }
  addProperties build scope type node
  addOpenProperties build scope type node
  addPropertyNames build scope type node
  addPropertyCounts scope type node
  dependencyWords.forM (addDependencies build scope type node)
  applyObjectCompositions build scope type node

/-! ## Objects as properties -/

/-- Reserve the type of an object node under the name the strategy gives it. -/
def reserveFor (site : Site) (node : Json) : Build TypeId := do
  let className := (← read).naming site.name node site.merged site.scope.className
  Build.reserve site.scope.namespaceName className false

/-- Fill and finish a reserved type, and make the property that holds it. -/
def materialize (build : Builder) (site : Site) (node : Json) (type : TypeId) : Build Property := do
  let className := ((← Build.graph).entry type).name.className
  fill build { site.scope with className } type node
  let type ← finish type
  instanceProperty site.name type site.required

/-- The property of an object node whose type has been reserved. -/
def objectInto (build : Builder) (site : Site) (node : Json) (type : TypeId) : Build PropertyId := do
  let property ← materialize build site node type
  Build.addProperty (← applyValueKeywords property node site.required)

def object (build : Builder) (site : Site) (node : Json) : Build PropertyId := do
  objectInto build site node (← reserveFor site node)

end SchemaTypes.Building
