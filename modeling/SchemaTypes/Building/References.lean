import SchemaTypes.Building.Objects
/-!
# References

Every definition is built once, and each reference gets a copy of it with its own name and
requiredness.  A reference met while its definition is being built gets a placeholder instead.
If the definition is an object, its type has been reserved and the placeholder holds it; any
other placeholder waits until the definition is complete and is filled in then (`bind`).
-/
namespace SchemaTypes.Building

/-- What a reference points to. -/
structure Target where
  key : DefinitionKey
  namespaceName : String
  node : Json
  /-- The last token of the pointer, or the document's file name up to its first dot. -/
  name : String

def documentName (key : String) : String :=
  String.ofList (Text.firstPart '.' (Text.lastPart '/' key.toList))

/-- Find a reference's target.  A bare fragment is looked up in the document of the scope. -/
def target? (documents : Reference.Documents) (scope : Scope) (reference : String) : Option Target := do
  let (documentPart, fragment) := Reference.split reference
  let document ←
    if documentPart.isEmpty then documents.get? scope.document else documents.locate? documentPart
  let pointer := Reference.decodeFragment fragment
  let node ← Reference.lookup? document.value pointer
  return {
    key := ⟨document.key, pointer⟩
    namespaceName := document.namespaceName
    node
    name := (Reference.lastSegment? pointer).getD (documentName document.key) }

def locate (scope : Scope) (reference : String) : Build Target := do
  match target? (← get).documents scope reference with
  | some target => return target
  | none => Build.refuse (.unresolvedReference reference)

/-! ## Placeholders -/

/-- Fill a placeholder in from its definition.  Name, requiredness and its own description stay. -/
def bound (placeholder definition : Property) (allowed : Bool) : Property :=
  { placeholder with
    label := definition.label
    default := definition.default
    description := placeholder.description <|> definition.description
    decorators := definition.decorators
    nested := definition.nested
    strict := definition.strict
    validators := definition.validators }.stampRequired placeholder.required allowed

def bind (definition placeholder : PropertyId) : Build Unit := do
  let source ← Build.getProperty definition
  let allowed := (← read).settings.implicitNull
  Build.modifyProperty placeholder (bound · source allowed)

/-- Mark a definition finished and fill in the placeholders that wait for it. -/
def complete (key : DefinitionKey) (definition : PropertyId) : Build Unit := do
  let previous := (← get).definition? key
  modify (·.setDefinition key (.built definition))
  match previous with
  | some (.inProgress _ waiting) => waiting.forM (bind definition)
  | _ => return ()

def placeholder (key : DefinitionKey) (site : Site) (reference : String) (type : Option TypeId)
    (waiting : List PropertyId) : Build PropertyId := do
  match type with
  | some type => Build.addProperty (← instanceProperty site.name type site.required)
  | none =>
    let property ← Build.presentProperty site
    let id ← Build.addProperty (property.addCheck (.deferred reference))
    modify (·.setDefinition key (.inProgress none (waiting ++ [id])))
    return id

/-! ## Definitions -/

/-- A copy of a definition for one site. -/
def copied (definition : Property) (name identifier : String) (required allowed : Bool) : Property :=
  { definition with name, identifier, relaxed := false }.stampRequired required allowed

def copy (definition : PropertyId) (site : Site) : Build PropertyId := do
  let source ← Build.getProperty definition
  match Naming.identifier? site.name with
  | none => Build.refuse (.emptyIdentifier site.name)
  | some identifier =>
    let allowed := (← read).settings.implicitNull
    Build.addProperty (copied source site.name identifier site.required allowed)

/-- Build the definition a reference points to, as required and at the top of its document. -/
def define (build : Builder) (target : Target) : Build PropertyId := do
  let scope : Scope :=
    { document := target.key.document, namespaceName := target.namespaceName, className := "" }
  let site : Site := { scope, name := target.name, required := true }
  let type ← if Keyword.isObject target.node then some <$> reserveFor site target.node else pure none
  modify (·.setDefinition target.key (.inProgress type []))
  let definition ← match type with
    | some type => objectInto build site target.node type
    | none => build site target.node
  complete target.key definition
  return definition

/-- The property of a reference. -/
def refer (build : Builder) (site : Site) (reference : String) : Build PropertyId := do
  let target ← locate site.scope reference
  match (← get).definition? target.key with
  | some (.built definition) => copy definition site
  | some (.inProgress type waiting) => placeholder target.key site reference type waiting
  | none => copy (← define build target) site

end SchemaTypes.Building
