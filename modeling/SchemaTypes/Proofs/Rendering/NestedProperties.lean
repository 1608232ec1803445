import Mathlib.Data.List.Perm.Basic
import Mathlib.Data.List.Sort
import SchemaTypes.Proofs.Building.Integrity
import SchemaTypes.Proofs.Rendering.Walks
import SchemaTypes.Rendering.Listing
/-!
# Closed listings

A listing shows the properties of a type and, as nested ones, those that checks lead to: what is reached from the type's
properties and its own checks and is no property of the type, each once and by ascending id.  So whatever a listed
property names as a child is listed itself (`Session.listing_closed`).  A walk that knows the type's properties from the
beginning and looks at children in any order ends, and has come upon the nested properties when it does.
-/
namespace SchemaTypes

open Session

/-! ## Ids in order -/

namespace Listing

/-- Ids in ascending order. -/
def byId (ids : List PropertyId) : List PropertyId := (ids.map (·.index)).mergeSort.map PropertyId.mk

variable {ids others : List PropertyId} {id : PropertyId}

theorem mem_byId : id ∈ byId ids ↔ id ∈ ids := by
  unfold byId
  simp only [List.mem_map, List.mem_mergeSort]
  constructor
  · rintro ⟨_, ⟨other, hother, rfl⟩, rfl⟩
    exact hother
  · exact fun hid => ⟨_, ⟨id, hid, rfl⟩, rfl⟩

theorem nodup_indexes (hnodup : ids.Nodup) : (ids.map (·.index)).Nodup :=
  List.Pairwise.map _ (fun a b hne heq => hne (by cases a; cases b; exact congrArg PropertyId.mk heq)) hnodup

theorem pairwise_byId (hnodup : ids.Nodup) : (byId ids).Pairwise (·.index < ·.index) := by
  have hstrict : (ids.map (·.index)).mergeSort.Pairwise (· < ·) :=
    (List.pairwise_mergeSort' (· ≤ ·) _).imp₂ (fun _ _ hle hne => Nat.lt_of_le_of_ne hle hne)
      ((List.mergeSort_perm _ _).nodup_iff.2 (nodup_indexes hnodup))
  exact List.Pairwise.map _ (fun _ _ hlt => hlt) hstrict

/-- What holds the same ids is the same in ascending order. -/
theorem byId_eq (hnodup : ids.Nodup) (hnodup' : others.Nodup) (hmem : ∀ id, id ∈ ids ↔ id ∈ others) :
    byId ids = byId others := by
  have hperm : ids.Perm others := (List.perm_ext_iff_of_nodup hnodup hnodup').2 hmem
  have hsorted : (ids.map (·.index)).mergeSort.Perm (others.map (·.index)).mergeSort :=
    (List.mergeSort_perm _ _).trans ((hperm.map _).trans (List.mergeSort_perm _ _).symm)
  have heq := hsorted.eq_of_pairwise (fun _ _ _ _ hab hba => Nat.le_antisymm hab hba)
    (List.pairwise_mergeSort' (· ≤ ·) _) (List.pairwise_mergeSort' (· ≤ ·) _)
  unfold byId
  rw [heq]

/-! ## Nested properties -/

variable {graph : Graph} {type : ObjectType}

theorem mem_nestedProperties (hknows : ∀ id, graph.Knows (graph.property id)) (htype : graph.KnowsType type) :
    id ∈ nestedProperties graph type ↔
      graph.Reaches (type.properties ++ type.validators.children) id ∧ id ∉ type.properties := by
  have hstart : ∀ x ∈ type.properties ++ type.validators.children, graph.HasProperty x := by
    intro x hx
    rcases List.mem_append.1 hx with hx | hx
    · exact htype.properties x hx
    · obtain ⟨v, hv, hmem⟩ := List.mem_flatMap.1 hx
      exact (htype.checks v hv).children x hmem
  have hfiltered : id ∈ nestedProperties graph type ↔
      id ∈ (graph.reachableFrom type).filter (!type.properties.contains ·) := mem_byId
  rw [hfiltered, List.mem_filter, Graph.reachableFrom, Graph.mem_reachable_iff hknows hstart]
  simp

theorem nodup_nested (graph : Graph) (type : ObjectType) :
    ((graph.reachableFrom type).filter (!type.properties.contains ·)).Nodup :=
  (Graph.nodup_reachable graph _).filter _

/-! ## Properties of a listing -/

def itemsOf : Option Json → List Json
  | some (.array items) => items
  | _ => []

/-- The properties a listing shows, its own ones and the nested ones. -/
def shown (listing : Json) : List Json :=
  itemsOf (listing.get? "properties") ++ itemsOf (listing.get? "nested_properties")

theorem lookup_optional {name other : String} (value : Option Json) (hne : other ≠ name) :
    List.lookup other (optional name value) = none := by
  cases value with
  | none => rfl
  | some value => simp [optional, hne]

/-- The type's own properties, in their order, and nothing else. -/
theorem get?_properties (graph : Graph) (id : TypeId) : (ofType graph id).get? "properties" =
    some (.array ((graph.type id).properties.map (ofProperty graph))) := by
  simp [ofType, Json.get?, Members.get?, List.lookup_cons, List.lookup_append, lookup_optional]

theorem get?_nestedProperties (graph : Graph) (id : TypeId) : (ofType graph id).get? "nested_properties" =
    some (.array ((nestedProperties graph (graph.type id)).map (ofProperty graph))) := by
  simp [ofType, Json.get?, Members.get?, List.lookup_cons, List.lookup_append, lookup_optional]

theorem shown_ofType (graph : Graph) (id : TypeId) : shown (ofType graph id) =
    ((graph.type id).properties ++ nestedProperties graph (graph.type id)).map (ofProperty graph) := by
  unfold shown
  rw [get?_properties, get?_nestedProperties, List.map_append]
  rfl

theorem get?_id (graph : Graph) (id : PropertyId) : (ofProperty graph id).get? "id" = some (.ofNat id.index) := by
  simp [ofProperty, ofId, Json.get?, Members.get?]

/-- An entry lists the children of its checks, unless there are none. -/
theorem get?_children (graph : Graph) (id : PropertyId) : (ofProperty graph id).get? "children" =
    if (graph.children id).isEmpty then none else some (.array ((graph.children id).map ofId)) := by
  cases hchildren : graph.children id <;> cases hdecorators : (graph.property id).decorators <;>
    simp [ofProperty, Json.get?, Members.get?, List.lookup_cons, List.lookup_append, lookup_optional, hchildren,
      hdecorators]

theorem itemsOf_children (graph : Graph) (id : PropertyId) : itemsOf ((ofProperty graph id).get? "children") =
    ((graph.property id).validators.toList.flatMap (·.check.children)).map (Json.ofNat ·.index) := by
  have hlisted : itemsOf ((ofProperty graph id).get? "children") = (graph.children id).map ofId := by
    rw [get?_children]
    cases graph.children id <;> rfl
  exact hlisted

end Listing

open Listing

/-- The pending properties of the walk that knows the type's properties: the children of the type's own checks, and those
of its properties. -/
def ObjectType.outset (graph : Graph) (type : ObjectType) : List PropertyId :=
  type.validators.children ++ type.properties.flatMap graph.children

variable {graph : Graph} {type : ObjectType}

theorem reaches_outset_iff {id : PropertyId} :
    graph.Reaches (type.properties ++ type.outset graph) id ↔
      graph.Reaches (type.properties ++ type.validators.children) id := by
  refine ⟨fun h => h.of_start fun x hx => ?_, fun h => h.of_start fun x hx => ?_⟩
  · rcases List.mem_append.1 hx with hx | hx
    · exact .start (List.mem_append_left _ hx)
    · rcases List.mem_append.1 hx with hx | hx
      · exact .start (List.mem_append_right _ hx)
      · obtain ⟨own, hown, hchild⟩ := List.mem_flatMap.1 hx
        exact Graph.Reaches.child (.start (List.mem_append_left _ hown)) hchild
  · refine .start (List.mem_append.2 ((List.mem_append.1 hx).imp_right fun hx => ?_))
    exact List.mem_append_left _ hx

/-- A walk that is over has come upon the nested properties. -/
theorem Listing.byId_found (hknows : ∀ id, graph.Knows (graph.property id)) (htype : graph.KnowsType type) {walk : Walk}
    (hsteps : Walk.Steps graph type.properties ⟨[], type.outset graph⟩ walk)
    (hover : walk.IsOver graph type.properties) : byId walk.found = nestedProperties graph type := by
  have hknown : ∀ id ∈ type.properties, ∀ child ∈ graph.children id, child ∈ type.outset graph :=
    fun id hid child hchild => List.mem_append_right _ (List.mem_flatMap.2 ⟨id, hid, hchild⟩)
  refine byId_eq (Walk.nodup_found hknown hsteps) (nodup_nested graph type) fun id => ?_
  rw [Walk.mem_found_iff hknown hsteps hover, reaches_outset_iff, ← mem_nestedProperties hknows htype]
  exact mem_byId

/-- **A listing is closed.**  After any calls, whatever refers to what in a circle, the nested properties of any type are
what its properties and its own checks reach through the children of checks, its own properties left out, each once and
by ascending id.  Gathering them ends, in whatever order, and in any order it finds just these.  The listing shows the
type's own properties under the one key and the nested ones under the other; each entry goes by the id of its property
and lists the ids of the children of its checks; and every child that an entry lists is the id of an entry. -/
theorem Session.listing_closed (config : Config) (calls : List Call) (id : TypeId) :
    let graph := (performAll config calls).graph
    let type := graph.type id
    let listing := ofType graph id
    (∀ nested, nested ∈ nestedProperties graph type ↔
      graph.Reaches (type.properties ++ type.validators.children) nested ∧ nested ∉ type.properties) ∧
    (nestedProperties graph type).Pairwise (·.index < ·.index) ∧
    (WellFounded fun later walk => Walk.Step graph type.properties walk later) ∧
    (∀ walk, Walk.Steps graph type.properties ⟨[], type.outset graph⟩ walk → walk.IsOver graph type.properties →
      byId walk.found = nestedProperties graph type) ∧
    listing.get? "properties" = some (.array (type.properties.map (ofProperty graph))) ∧
    listing.get? "nested_properties" = some (.array ((nestedProperties graph type).map (ofProperty graph))) ∧
    (∀ property, (ofProperty graph property).get? "id" = some (.ofNat property.index) ∧
      itemsOf ((ofProperty graph property).get? "children") =
        ((graph.property property).validators.toList.flatMap (·.check.children)).map (Json.ofNat ·.index)) ∧
    ∀ entry ∈ shown listing, ∀ child ∈ itemsOf (entry.get? "children"),
      ∃ other ∈ shown listing, other.get? "id" = some child := by
  intro graph type listing
  have hclosed := (intact_performs config calls).toClosed
  have hknows : ∀ id, graph.Knows (graph.property id) := hclosed.properties
  have htype : graph.KnowsType type := hclosed.types _
  refine ⟨fun nested => mem_nestedProperties hknows htype, pairwise_byId (nodup_nested graph type),
    Walk.wellFounded_step graph type.properties, fun walk hsteps hover => byId_found hknows htype hsteps hover,
    get?_properties graph id, get?_nestedProperties graph id,
    fun property => ⟨get?_id graph property, itemsOf_children graph property⟩, fun entry hentry child hchild => ?_⟩
  have hshown : shown listing = (type.properties ++ nestedProperties graph type).map (ofProperty graph) :=
    shown_ofType graph id
  rw [hshown] at hentry ⊢
  obtain ⟨parent, hparent, rfl⟩ := List.mem_map.1 hentry
  rw [itemsOf_children] at hchild
  obtain ⟨childId, hchildId, rfl⟩ := List.mem_map.1 hchild
  have hreaches : graph.Reaches (type.properties ++ type.validators.children) parent := by
    rcases List.mem_append.1 hparent with hown | hnested
    · exact .start (List.mem_append_left _ hown)
    · exact ((mem_nestedProperties hknows htype).1 hnested).1
  refine ⟨_, List.mem_map.2 ⟨childId, List.mem_append.2 ?_, rfl⟩, get?_id graph childId⟩
  by_cases hown : childId ∈ type.properties
  · exact Or.inl hown
  · exact Or.inr ((mem_nestedProperties hknows htype).2 ⟨hreaches.child hchildId, hown⟩)

end SchemaTypes
