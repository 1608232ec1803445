import SchemaTypes.Building.Fault
import SchemaTypes.Configuration.Filters
import SchemaTypes.Configuration.Settings
import SchemaTypes.Naming.Source
import SchemaTypes.Reference.Documents
import SchemaTypes.Types.CanonicalText
/-!
# Sessions

What the documents of one run share: the graph, the documents references may point into, the
definitions built so far, the signatures of finished types, and the notices.

Building reads a configuration and changes the session.  A document at fault leaves the session
as it was when the fault came up: the state sits below the fault in `Build`.  `Halt.exhausted` is
no fault of the document; it says that the recursion bound of `Building.Process` was too
small.
-/
namespace SchemaTypes

structure Config where
  settings : Settings := {}
  filters : Filters := Filters.standard
  naming : Naming.Strategy := Naming.standard

/-- A definition is known by its document and the decoded pointer in it. -/
structure DefinitionKey where
  document : String
  pointer : String
deriving DecidableEq, Repr

inductive Definition where
  /-- Being built.  An object's type is known from the start; whoever meets any other definition
  at this stage is given a placeholder, which waits to be filled in. -/
  | inProgress (type : Option TypeId) (waiting : List PropertyId)
  | built (property : PropertyId)

structure Session where
  graph : Graph := {}
  documents : Reference.Documents := []
  definitions : List (DefinitionKey × Definition) := []
  /-- The first finished type of each signature. -/
  signatures : List (String × TypeId) := []
  notices : List Notice := []

/-- Where a node stands: the document its bare references mean, and the namespace and the class
of the enclosing type. -/
structure Scope where
  document : String
  namespaceName : String
  className : String

inductive Halt where
  | refused (fault : SchemaFault)
  | exhausted

abbrev Build := ReaderT Config (ExceptT Halt (StateM Session))

/-- What a property is built for. -/
structure Site where
  scope : Scope
  name : String
  required : Bool
  /-- Whether an object's class is named as merged into the enclosing one. -/
  merged : Bool := false

/-- Builds the property that a node describes for a site. -/
abbrev Builder := Site → Json → Build PropertyId

namespace Session

def setDefinition (session : Session) (key : DefinitionKey) (definition : Definition) : Session :=
  let others := session.definitions.filter (·.1 ≠ key)
  { session with definitions := others ++ [(key, definition)] }

def definition? (session : Session) (key : DefinitionKey) : Option Definition :=
  session.definitions.lookup key

end Session

namespace Build

def refuse {α : Type} (fault : SchemaFault) : Build α := throw (Halt.refused fault)

def malformed {α : Type} (property reason : String) : Build α := refuse (.malformed property reason)

def ofExcept {α : Type} (result : Except SchemaFault α) : Build α :=
  match result with
  | .ok value => pure value
  | .error fault => refuse fault

def graph : Build Graph := do return (← get).graph

def setGraph (graph : Graph) : Build Unit := modify fun session => { session with graph }

def modifyGraph (f : Graph → Graph) : Build Unit :=
  modify fun session => { session with graph := f session.graph }

def addProperty (property : Property) : Build PropertyId := do
  let (id, graph) := (← graph).addProperty property
  setGraph graph
  return id

def getProperty (id : PropertyId) : Build Property := do return (← graph).property id

def modifyProperty (id : PropertyId) (f : Property → Property) : Build Unit :=
  modifyGraph (·.modifyProperty id f)

def modifyType (id : TypeId) (f : ObjectType → ObjectType) : Build Unit :=
  modifyGraph (·.modifyType id f)

def addTypeCheck (id : TypeId) (check : Check) : Build Unit :=
  modifyType id fun type => { type with validators := type.validators.addCheck check }

def addTypeProperty (id : TypeId) (property : PropertyId) : Build Unit :=
  modifyType id fun type => { type with properties := type.properties ++ [property] }

def reserve (namespaceName className : String) (isRoot : Bool) : Build TypeId := do
  let (id, graph) := (← graph).reserve namespaceName className isRoot
  setGraph graph
  return id

def notify (notice : Notice) : Build Unit :=
  modify fun session => { session with notices := session.notices ++ [notice] }

/-- A property without validators. -/
def newProperty (name : String) (required : Bool) : Build Property :=
  match Naming.identifier? name with
  | some identifier => pure { name, identifier, required }
  | none => refuse (.emptyIdentifier name)

/-- Whether an optional property accepts null. -/
def allowsNull (required : Bool) : Build Bool := do
  return (← read).settings.implicitNull && !required

/-- A property that checks for nothing but presence. -/
def presentProperty (site : Site) : Build Property := do
  let property ← newProperty site.name site.required
  return if site.required then property.addCheck .required else property

/-- Build a property for a nested context: strict about null, but never missing. -/
def nested (build : Builder) (scope : Scope) (name : String) (node : Json) : Build PropertyId := do
  let id ← build { scope, name, required := true } node
  modifyProperty id Property.relax
  return id

end Build
end SchemaTypes
