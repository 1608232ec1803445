import SchemaTypes.Types.Graph
/-!
# What a type refers to

From its properties and its own checks a type reaches further properties through the children
of checks.  `reachable` visits each of them once: a visited property leaves `unvisited`, so the
walk ends on cycles too.  The types those properties hold or make instances of are the ones
the type refers to.
-/
namespace SchemaTypes.Graph

/-- The properties among `unvisited` reached from those pending, each once. -/
def visit (graph : Graph) (unvisited : List PropertyId) : List PropertyId → List PropertyId
  | [] => []
  | id :: pending =>
    if _h : id ∈ unvisited then id :: visit graph (unvisited.erase id) (graph.children id ++ pending)
    else visit graph unvisited pending
termination_by pending => (unvisited.length, pending.length)
decreasing_by
  · have := List.length_erase_of_mem _h
    have := List.length_pos_of_mem _h
    apply Prod.Lex.left
    omega
  · apply Prod.Lex.right
    simp

/-- The properties reached from `start`, itself included. -/
def reachable (graph : Graph) (start : List PropertyId) : List PropertyId :=
  graph.visit graph.propertyIds start

/-- Everything a type's own properties and checks reach. -/
def reachableFrom (graph : Graph) (type : ObjectType) : List PropertyId :=
  graph.reachable (type.properties ++ type.validators.children)

/-- The types a property holds or makes instances of. -/
def typesOf (property : Property) : List TypeId := property.nested.toList ++ property.validators.types

/-- Ids in ascending order, each once. -/
def ascending (ids : List TypeId) : List TypeId :=
  ((ids.map (·.index)).mergeSort.eraseDups).map TypeId.mk

/-- The generated types a type refers to, itself left out. -/
def referencedTypes (graph : Graph) (id : TypeId) : List TypeId :=
  let id := graph.canonical id
  let type := graph.entry id
  let named := type.validators.types ++
    (graph.reachableFrom type).flatMap fun property => typesOf (graph.property property)
  ascending ((named.map graph.canonical).filter (· ≠ id))

/-- The qualified names of the types referred to that live in another namespace, sorted. -/
def usedTypes (graph : Graph) (id : TypeId) : List String :=
  let home := (graph.type id).name.namespaceName
  let names := (graph.referencedTypes id).map fun id => (graph.type id).name
  (((names.filter (·.namespaceName ≠ home)).map TypeName.qualified).mergeSort
    fun a b => decide (a ≤ b)).eraseDups

end SchemaTypes.Graph
