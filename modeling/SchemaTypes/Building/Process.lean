import SchemaTypes.Building.Nodes
import SchemaTypes.Json.Reader
/-!
# Processing documents

A document's root becomes a type; it must describe an object, or refer to a node that does.
Everything it refers to is built on the way.  The root is also the definition of the pointer it
stands at, so a reference back to it closes a cycle.

Building recurses along nodes and references.  A chain of nested definitions has no key twice, and
no more keys than documents times references; between two definitions a node's depth bounds
the recursion, up to the few levels that abbreviated schemas are expanded by.  `recursionBound`
allows for all of that.
-/
namespace SchemaTypes

namespace Building

mutual
/-- How many references a value spells. -/
def referenceCount : Json → Nat
  | .array items => referenceCountOfItems items
  | .object members => referenceCountOfMembers members
  | _ => 0
def referenceCountOfItems : List Json → Nat
  | [] => 0
  | item :: rest => referenceCount item + referenceCountOfItems rest
def referenceCountOfMembers : List (String × Json) → Nat
  | [] => 0
  | (name, value) :: rest =>
    (if name = "$ref" then 1 else 0) + referenceCount value + referenceCountOfMembers rest
end

def recursionBound (documents : Reference.Documents) : Nat :=
  let references := (documents.map fun document => referenceCount document.value).foldl (· + ·) 0
  let depth := (documents.map fun document => document.value.depth).foldl max 0
  (documents.length * references + 2) * (depth + 5)

/-- The root node of a document, and the key under which it is a definition: none if it lies in
another document. -/
def rootOf (source : Source) (scope : Scope) (document : Json) : Build (Json × Option DefinitionKey) := do
  match document.stringAt? "$ref" with
  | some reference =>
    let target ← locate scope reference
    if Keyword.isObject target.node then
      return (target.node, if target.key.document = source.key then some target.key else none)
    else Build.refuse (.baseReferenceNotObject reference)
  | none =>
    if Keyword.isObject document || (document.isObject && !document.has "type") then
      return (document, some ⟨source.key, ""⟩)
    else Build.refuse (.rootNotObject source.key)

/-- Store a document and build its root type. -/
def document (source : Source) (value : Json) : Build TypeId := do
  modify fun session => { session with
    documents := session.documents.insert ⟨source.key, source.namespaceName, value⟩ }
  let build := property (recursionBound (← get).documents)
  let scope : Scope :=
    { document := source.key, namespaceName := source.namespaceName, className := "" }
  let (root, key) ← rootOf source scope value
  let type ← Build.reserve source.namespaceName source.className true
  let className := ((← Build.graph).entry type).name.className
  if let some key := key then
    modify (·.setDefinition key (.inProgress (some type) []))
  fill build { scope with className } type root
  let type ← finish type
  if let some key := key then
    let definition ← Build.addProperty (← instanceProperty className type true)
    complete key definition
  return type

end Building

namespace Session

/-- Make a document known to references without building anything. -/
def register (session : Session) (source : Source) (value : Json) : Session :=
  { session with
    documents := session.documents.insert ⟨source.key, source.namespaceName, value⟩ }

/-- Process a document.  Answers its root type or what stopped it, and the session after it. -/
def process (session : Session) (config : Config) (source : Source) (value : Json) :
    Except Halt TypeId × Session :=
  (((Building.document source value).run config).run).run session

end Session
end SchemaTypes
