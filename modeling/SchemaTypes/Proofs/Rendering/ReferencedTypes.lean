import Mathlib.Data.List.Sort
import Mathlib.Data.String.Basic
import SchemaTypes.Proofs.Building.Arranging
import SchemaTypes.Proofs.Building.Collapse
import SchemaTypes.Proofs.Rendering.NestedProperties
/-!
# What a type refers to

A type refers to the types that are named by the properties it reaches, be it that a property holds an instance of
another type or that one of its checks makes one (`Property.Mentions`), each by the id under which it is generated and
never to itself.  The generated type imports those of another namespace.  After any calls that is just what the lists
say (`Session.references_exact`), and a walk that gathers the properties in any other order ends with the same.
-/
namespace SchemaTypes

open Session

/-! ## Each once, in order -/

section Ascending

variable {α : Type}

theorem pairwise_eraseDups [BEq α] [LawfulBEq α] {R : α → α → Prop} {l : List α} (h : l.Pairwise R) :
    l.eraseDups.Pairwise fun a b => R a b ∧ a ≠ b := by
  induction hlength : l.length using Nat.strong_induction_on generalizing l with
  | _ n ih =>
    cases l with
    | nil => exact List.Pairwise.nil
    | cons a rest =>
      rw [List.eraseDups_cons]
      obtain ⟨hfirst, hrest⟩ := List.pairwise_cons.1 h
      have hshorter : (rest.filter fun b => !b == a).length < n := by
        have := List.length_filter_le (fun b => !b == a) rest
        simp only [List.length_cons] at hlength
        omega
      refine List.pairwise_cons.2 ⟨fun b hb => ?_, ih _ hshorter (hrest.filter _) rfl⟩
      obtain ⟨hmem, hne⟩ := List.mem_filter.1 (List.mem_eraseDups.1 hb)
      refine ⟨hfirst b hmem, fun heq => ?_⟩
      simp [heq] at hne

variable [LinearOrder α]

theorem pairwise_lt_sorted [BEq α] [LawfulBEq α] (l : List α) :
    (l.mergeSort fun a b => decide (a ≤ b)).eraseDups.Pairwise (· < ·) :=
  (pairwise_eraseDups (List.pairwise_mergeSort' (· ≤ ·) l)).imp fun h => lt_of_le_of_ne h.1 h.2

/-- Two lists in strictly ascending order that hold the same are the same. -/
theorem eq_of_pairwise_lt {l l' : List α} (h : l.Pairwise (· < ·)) (h' : l'.Pairwise (· < ·))
    (hmem : ∀ a, a ∈ l ↔ a ∈ l') : l = l' :=
  ((List.perm_ext_iff_of_nodup (h.imp ne_of_lt) (h'.imp ne_of_lt)).2 hmem).eq_of_pairwise
    (fun _ _ _ _ hab hba => absurd hab (lt_asymm hba)) h h'

end Ascending

namespace Graph

theorem pairwise_ascending (types : List TypeId) : (ascending types).Pairwise (·.index < ·.index) :=
  List.Pairwise.map _ (fun _ _ hlt => hlt) (pairwise_lt_sorted (types.map (·.index)))

theorem ascending_congr {types others : List TypeId} (hmem : ∀ id, id ∈ types ↔ id ∈ others) :
    ascending types = ascending others := by
  have hindexes : ∀ ids : List TypeId, (ids.map (·.index)).mergeSort.eraseDups.Pairwise (· < ·) :=
    fun ids => pairwise_lt_sorted (ids.map (·.index))
  unfold ascending
  refine congrArg _ (eq_of_pairwise_lt (hindexes types) (hindexes others) fun index => ?_)
  simp only [List.mem_eraseDups, List.mem_mergeSort, List.mem_map, hmem]

end Graph

/-! ## What a property names -/

/-- The property holds an instance of the type, or a check of it makes one. -/
def Property.Mentions (property : Property) (type : TypeId) : Prop :=
  property.nested = some type ∨ ∃ v ∈ property.validators.toList, v.check = .instanceOf type

theorem Check.mem_types {check : Check} {type : TypeId} : type ∈ check.types ↔ check = .instanceOf type := by
  cases check with
  | instanceOf other => simp [Check.types, eq_comm]
  | _ => simp [Check.types]

namespace Graph

variable {graph : Graph} {type : ObjectType} {id other named : TypeId}

theorem mem_typesOf {property : Property} : named ∈ typesOf property ↔ property.Mentions named := by
  simp only [typesOf, Property.Mentions, Validators.types, List.mem_append, Option.mem_toList, List.mem_flatMap,
    Check.mem_types]

theorem types_of_bare (hbare : ∀ v ∈ type.validators.toList, v.check.types = []) : type.validators.types = [] :=
  List.flatMap_eq_nil_iff.2 hbare

/-- The types that the properties name, as they are generated, a given one left out. -/
def namedAmong (graph : Graph) (properties : List PropertyId) (id : TypeId) : List TypeId :=
  ((properties.flatMap fun property => typesOf (graph.property property)).map graph.canonical).filter (· ≠ id)

theorem mem_namedAmong {properties : List PropertyId} : other ∈ graph.namedAmong properties id ↔ other ≠ id ∧
    ∃ property ∈ properties, ∃ named, (graph.property property).Mentions named ∧ graph.canonical named = other := by
  simp only [namedAmong, List.mem_filter, List.mem_map, List.mem_flatMap, mem_typesOf, decide_eq_true_eq]
  constructor
  · rintro ⟨⟨named, ⟨property, hproperty, hnames⟩, hcanonical⟩, hne⟩
    exact ⟨hne, property, hproperty, named, hnames, hcanonical⟩
  · rintro ⟨hne, property, hproperty, named, hnames, hcanonical⟩
    exact ⟨⟨named, ⟨property, hproperty, hnames⟩, hcanonical⟩, hne⟩

/-- The properties that a type reaches name all the types it refers to if its own checks make no instances. -/
theorem referencedTypes_eq_namedAmong (hbare : ∀ v ∈ (graph.type id).validators.toList, v.check.types = []) :
    graph.referencedTypes id =
      ascending (graph.namedAmong (graph.reachableFrom (graph.type id)) (graph.canonical id)) := by
  rw [referencedTypes_eq_namedBy, namedBy, types_of_bare hbare, List.nil_append]
  rfl

theorem mem_usedTypes {text : String} : text ∈ graph.usedTypes id ↔ ∃ other ∈ graph.referencedTypes id,
    (graph.type other).name.namespaceName ≠ (graph.type id).name.namespaceName ∧
      (graph.type other).name.qualified = text := by
  simp only [usedTypes, List.mem_eraseDups, List.mem_mergeSort, List.mem_map, List.mem_filter, decide_eq_true_eq]
  constructor
  · rintro ⟨_, ⟨⟨other, hother, rfl⟩, hne⟩, rfl⟩
    exact ⟨other, hother, hne, rfl⟩
  · rintro ⟨other, hother, hne, rfl⟩
    exact ⟨_, ⟨⟨other, hother, rfl⟩, hne⟩, rfl⟩

theorem pairwise_usedTypes (graph : Graph) (id : TypeId) : (graph.usedTypes id).Pairwise (· < ·) :=
  pairwise_lt_sorted _

end Graph

/-! ## After any calls -/

/-- **A type refers to what it reaches.**  After any calls, whatever refers to what in a circle, the types a type refers
to are those that some property names which is reached, through the children of checks, from the properties and the
checks of the type as it is generated; each by the id under which it is generated, once and in ascending order, never the
type itself and none that is redirected.  Gathering the properties ends, in whatever order they are taken, and names the
same types in any order.  The type imports, in order and each once, the qualified names of those that live in another
namespace. -/
theorem Session.references_exact (config : Config) (calls : List Call) (id : TypeId) :
    let graph := (performAll config calls).graph
    let start := (graph.type id).properties ++ (graph.type id).validators.children
    (∀ other, other ∈ graph.referencedTypes id ↔ other ≠ graph.canonical id ∧
      ∃ property, graph.Reaches start property ∧
        ∃ named, (graph.property property).Mentions named ∧ graph.canonical named = other) ∧
    (∀ other ∈ graph.referencedTypes id, graph.HasType other ∧ (graph.entry other).redirect = none) ∧
    (graph.referencedTypes id).Pairwise (·.index < ·.index) ∧
    (WellFounded fun later walk => Walk.Step graph [] walk later) ∧
    (∀ walk, Walk.Steps graph [] ⟨[], start⟩ walk → walk.IsOver graph [] →
      Graph.ascending (graph.namedAmong walk.found (graph.canonical id)) = graph.referencedTypes id) ∧
    (∀ text, text ∈ graph.usedTypes id ↔ ∃ other ∈ graph.referencedTypes id,
      (graph.type other).name.namespaceName ≠ (graph.type id).name.namespaceName ∧
        (graph.type other).name.qualified = text) ∧
    (graph.usedTypes id).Pairwise (· < ·) := by
  intro graph start
  have hclosed := (intact_performs config calls).toClosed
  have hsettled := (collapsed_performAll config calls).settled
  have hknows : ∀ id, graph.Knows (graph.property id) := hclosed.properties
  have hlist : graph.referencedTypes id =
      Graph.ascending (graph.namedAmong (graph.reachableFrom (graph.type id)) (graph.canonical id)) :=
    Graph.referencedTypes_eq_namedAmong ((arranged_performAll config calls).bare (graph.canonical id))
  have hreached : ∀ property, property ∈ graph.reachableFrom (graph.type id) ↔ graph.Reaches start property :=
    fun _ => Graph.mem_reachable_iff hknows (Graph.AgreeOn.hasProperty_start (hclosed.types _))
  have hmem : ∀ other, other ∈ graph.referencedTypes id ↔ other ≠ graph.canonical id ∧
      ∃ property, graph.Reaches start property ∧
        ∃ named, (graph.property property).Mentions named ∧ graph.canonical named = other := by
    intro other
    rw [hlist, Graph.mem_ascending, Graph.mem_namedAmong]
    simp only [hreached]
  refine ⟨hmem, fun other hother => ?_, ?_, Walk.wellFounded_step graph [], fun walk hsteps hover => ?_,
    fun text => Graph.mem_usedTypes, Graph.pairwise_usedTypes graph id⟩
  · obtain ⟨-, property, -, named, hnames, rfl⟩ := (hmem other).1 hother
    exact ⟨hclosed.canonical (hclosed.hasType_typesOf (Graph.mem_typesOf.2 hnames)), hsettled.stands named⟩
  · rw [hlist]
    exact Graph.pairwise_ascending _
  · have hfound : ∀ property, property ∈ walk.found ↔ graph.Reaches start property := fun property => by
      have hmem : property ∈ walk.found ↔ graph.Reaches ([] ++ start) property ∧ property ∉ [] :=
        Walk.mem_found_iff (fun _ hnone => absurd hnone List.not_mem_nil) hsteps hover
      simpa using hmem
    rw [hlist]
    refine Graph.ascending_congr fun other => ?_
    simp only [Graph.mem_namedAmong, hfound, hreached]

end SchemaTypes
