import SchemaTypes.Types.Property
/-!
# The graph of types

All properties and types of a run, addressed by ids that never change: a property that stands
for a definition still being built can be filled in later under its id.  A type found to be a
duplicate is redirected to an earlier one and is not generated itself.

Looking up an id nobody handed out gives an empty property or type.
-/
namespace SchemaTypes

/-- Where a type lives. -/
structure TypeName where
  namespaceName : String
  className : String
deriving DecidableEq, Repr

namespace TypeName

/-- The name by which other namespaces import the type. -/
def qualified (name : TypeName) : String :=
  if name.namespaceName.isEmpty then name.className
  else name.namespaceName ++ "\\" ++ name.className

/-- The text by which two names are told apart when a new one is chosen. -/
def key (name : TypeName) : String := name.namespaceName ++ "\\" ++ name.className

end TypeName

/-- One generated type: its properties in order, and the checks on the object as a whole. -/
structure ObjectType where
  name : TypeName
  isRoot : Bool
  description : Option String := none
  properties : List PropertyId := []
  validators : Validators := {}
  /-- The signature the type had when it was finished. -/
  signature : Option String := none
  redirect : Option TypeId := none

instance : Inhabited ObjectType := ⟨{ name := ⟨"", ""⟩, isRoot := false }⟩

structure Graph where
  properties : Array Property := #[]
  types : Array ObjectType := #[]

namespace Graph

def property (graph : Graph) (id : PropertyId) : Property := graph.properties.getD id.index default

/-- The entry of a type itself, redirected or not. -/
def entry (graph : Graph) (id : TypeId) : ObjectType := graph.types.getD id.index default

def addProperty (graph : Graph) (property : Property) : PropertyId × Graph :=
  (⟨graph.properties.size⟩, { graph with properties := graph.properties.push property })

def modifyProperty (graph : Graph) (id : PropertyId) (f : Property → Property) : Graph :=
  { graph with properties := graph.properties.modify id.index f }

def modifyType (graph : Graph) (id : TypeId) (f : ObjectType → ObjectType) : Graph :=
  { graph with types := graph.types.modify id.index f }

theorem property_addProperty (graph : Graph) (property : Property) :
    (graph.addProperty property).2.property (graph.addProperty property).1 = property := by
  simp [addProperty, Graph.property]

theorem property_addProperty_of_lt (graph : Graph) (property : Property) {id : PropertyId}
    (h : id.index < graph.properties.size) :
    (graph.addProperty property).2.property id = graph.property id := by
  simp [addProperty, Graph.property, Array.getElem?_push, Nat.ne_of_lt h]

theorem property_modifyProperty (graph : Graph) (f : Property → Property) {id : PropertyId}
    (h : id.index < graph.properties.size) :
    (graph.modifyProperty id f).property id = f (graph.property id) := by
  simp [modifyProperty, Graph.property, Array.getElem_modify_self, h]

theorem property_modifyProperty_of_ne (graph : Graph) (f : Property → Property)
    {id other : PropertyId} (h : other ≠ id) :
    (graph.modifyProperty id f).property other = graph.property other := by
  have : id.index ≠ other.index := fun e => h (by cases id; cases other; simp_all)
  simp [modifyProperty, Graph.property, Array.getElem?_modify, this]

/-! ## Names

A name that is taken gets a number behind it, from two on.  Of more candidates than there are
types, one is free. -/

def isTaken (graph : Graph) (name : TypeName) : Bool := graph.types.any (·.name.key = name.key)

def candidate (className : String) (n : Nat) : String :=
  if n = 0 then className else className ++ "_" ++ toString (n + 1)

def freeName (graph : Graph) (namespaceName className : String) : TypeName :=
  let names := (List.range (graph.types.size + 1)).map fun n =>
    (⟨namespaceName, candidate className n⟩ : TypeName)
  (names.find? (!graph.isTaken ·)).getD ⟨namespaceName, className⟩

/-- Add an empty type under a name nobody has. -/
def reserve (graph : Graph) (namespaceName className : String) (isRoot : Bool) : TypeId × Graph :=
  let type : ObjectType := { name := graph.freeName namespaceName className, isRoot }
  (⟨graph.types.size⟩, { graph with types := graph.types.push type })

/-! ## Redirects -/

/-- Follow redirects, at most as many as there are types. -/
def follow (graph : Graph) : Nat → TypeId → TypeId
  | 0, id => id
  | n + 1, id =>
    match (graph.entry id).redirect with
    | some target => follow graph n target
    | none => id

/-- The type generated for `id`. -/
def canonical (graph : Graph) (id : TypeId) : TypeId := graph.follow graph.types.size id

def type (graph : Graph) (id : TypeId) : ObjectType := graph.entry (graph.canonical id)

def className (graph : Graph) (id : TypeId) : String := (graph.type id).name.className

def propertyIds (graph : Graph) : List PropertyId :=
  (List.range graph.properties.size).map PropertyId.mk

def typeIds (graph : Graph) : List TypeId := (List.range graph.types.size).map TypeId.mk

/-- The types that are generated, in creation order. -/
def generated (graph : Graph) : List TypeId :=
  graph.typeIds.filter fun id => (graph.entry id).redirect.isNone

/-! ## Finding -/

/-- The property of a type with this name. -/
def findProperty? (graph : Graph) (id : TypeId) (name : String) : Option PropertyId :=
  (graph.type id).properties.find? fun property => (graph.property property).name = name

/-- The first generated type with this class name. -/
def findType? (graph : Graph) (className : String) : Option TypeId :=
  graph.generated.find? fun id => (graph.entry id).name.className = className

/-- The properties a property's checks apply. -/
def children (graph : Graph) (id : PropertyId) : List PropertyId :=
  (graph.property id).validators.children

end Graph
end SchemaTypes
