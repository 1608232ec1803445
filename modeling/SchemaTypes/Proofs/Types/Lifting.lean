import SchemaTypes.Building.Compositions
import SchemaTypes.Types.Graph
/-!
# Declared and lifted properties

A type lists the properties it declares, and behind them those lifted from its branches, which are marked.  The first
property of a name tells whether the type declares the name itself (`Graph.declares`).  A type only ever grows at its
end, so once it lists a name this is settled, and so is which names a branch populates: those that the branch's type
lists and the type does not declare (`Graph.Covers`).
-/
namespace SchemaTypes

namespace Property

/-- Whether the property has been lifted from a branch. -/
def isLifted (property : Property) : Bool := property.decorators.any Decorator.isTransferred

/-- What a type's list shows of the property. -/
def mark (property : Property) : String × Bool := (property.name, property.isLifted)

/-- The property is optional, and nothing is checked about it. -/
structure Unchecked (property : Property) : Prop where
  required : property.required = false
  validators : property.validators.toList = []

end Property

namespace Building

theorem isLifted_lifted (source : Property) (combinator : Combinator) : (lifted source combinator).isLifted = true := by
  unfold lifted Property.addDecorator Property.isLifted
  split
  · rename_i hmem
    exact List.any_eq_true.2 ⟨_, List.contains_iff_mem.1 hmem, rfl⟩
  · exact List.any_eq_true.2 ⟨_, List.mem_append_right _ List.mem_cons_self, rfl⟩

theorem unchecked_lifted (source : Property) (combinator : Combinator) : (lifted source combinator).Unchecked := by
  unfold lifted Property.addDecorator
  split
  · exact ⟨rfl, rfl⟩
  · exact ⟨rfl, rfl⟩

theorem mark_lifted (source : Property) (combinator : Combinator) :
    (lifted source combinator).mark = (source.name, true) := by
  refine Prod.ext ?_ (isLifted_lifted source combinator)
  unfold lifted Property.addDecorator Property.mark
  split
  · rfl
  · rfl

end Building

namespace Graph

variable {graph later : Graph} {type nested : TypeId} {name : String} {branch : Branch}

/-- What a type lists, redirected or not. -/
def marks (graph : Graph) (type : TypeId) : List (String × Bool) :=
  (graph.entry type).properties.map fun id => (graph.property id).mark

def names (graph : Graph) (type : TypeId) : List String := (graph.marks type).map (·.1)

/-- Whether the type declares the name itself: the first property of this name has not been lifted. -/
def declares (graph : Graph) (type : TypeId) (name : String) : Bool :=
  ((graph.marks type).find? (·.1 = name)).any (!·.2)

/-- The branch populates all names of its type `nested` that the enclosing type does not declare, and no others. -/
structure Covers (graph : Graph) (type nested : TypeId) (branch : Branch) : Prop where
  names : ∀ name ∈ graph.names nested, name ∈ graph.names type
  affected : branch.affected = (graph.names nested).filter (!graph.declares type ·)

theorem mem_names : name ∈ graph.names type ↔ ∃ lifted, (name, lifted) ∈ graph.marks type := by
  unfold names
  rw [List.mem_map]
  constructor
  · rintro ⟨⟨_, lifted⟩, hmem, rfl⟩
    exact ⟨lifted, hmem⟩
  · rintro ⟨lifted, hmem⟩
    exact ⟨_, hmem, rfl⟩

/-! ## Types that have grown -/

theorem mem_names_grow (h : graph.marks type <+: later.marks type) (hname : name ∈ graph.names type) :
    name ∈ later.names type := (h.map (·.1)).subset hname

/-- What is listed behind a name does not change whether it is declared. -/
theorem declares_grow (h : graph.marks type <+: later.marks type) (hname : name ∈ graph.names type) :
    later.declares type name = graph.declares type name := by
  obtain ⟨added, hadded⟩ := h
  obtain ⟨lifted, hmem⟩ := mem_names.1 hname
  unfold declares
  rw [← hadded, List.find?_append]
  cases hfirst : (graph.marks type).find? (·.1 = name) with
  | none => exact absurd rfl (of_decide_eq_false (Bool.not_eq_true _ ▸ List.find?_eq_none.1 hfirst _ hmem))
  | some first => rfl

theorem Covers.grow (h : graph.Covers type nested branch) (htype : graph.marks type <+: later.marks type)
    (hnested : later.marks nested = graph.marks nested) : later.Covers type nested branch := by
  have hnames : later.names nested = graph.names nested := by
    unfold Graph.names
    rw [hnested]
  refine ⟨fun name hname => mem_names_grow htype (h.names name (hnames ▸ hname)), ?_⟩
  rw [h.affected, hnames]
  refine List.filter_congr fun name hname => ?_
  rw [declares_grow htype (h.names name hname)]

end Graph
end SchemaTypes
