import Mathlib.Data.List.Nodup
import SchemaTypes.Json.Kind
/-!
# The order of members

Two values are the same up to the order of members if one becomes the other by reordering the members of objects, at any
depth (`Json.Reordered`).  With distinct names an object is a map from names to values, so this is said by lookup: both
objects have the same names, and the same values under them up to order.

Putting a member into two objects keeps them so (`Members.Reordered.insert`).
-/
namespace SchemaTypes

namespace Members

variable {members : Members} {name : String} {value : Json}

theorem isSome_get? : (members.get? name).isSome = true ↔ name ∈ members.names := by
  unfold get? names
  simp only [List.lookup_isSome_iff, List.mem_map, beq_iff_eq, eq_comm (a := name)]

theorem mem_of_get? (h : members.get? name = some value) : (name, value) ∈ members := by
  obtain ⟨before, behind, rfl, -⟩ := List.lookup_eq_some_iff.1 h
  exact List.mem_append_right _ List.mem_cons_self

/-- With distinct names, a member is found under its name. -/
theorem get?_of_mem : ∀ {members : Members}, members.names.Nodup → (name, value) ∈ members →
    members.get? name = some value
  | (known, old) :: rest, hnames, h => by
    obtain ⟨hknown, hrest⟩ := List.nodup_cons.1 hnames
    unfold get?
    rw [List.lookup_cons]
    rcases List.mem_cons.1 h with heq | hmem
    · obtain ⟨rfl, rfl⟩ := Prod.mk.inj heq
      rw [beq_self_eq_true]
    · have hne : name ≠ known := by
        rintro rfl
        exact hknown (List.mem_map.2 ⟨_, hmem, rfl⟩)
      rw [beq_false_of_ne hne]
      exact get?_of_mem hrest hmem

theorem mem_names_insert {other : String} : ∀ {members : Members},
    other ∈ (members.insert name value).names ↔ other = name ∨ other ∈ members.names
  | [] => List.mem_cons
  | (known, old) :: rest => by
    rw [insert]
    split
    · rename_i heq
      subst heq
      simp [names]
    · have hrest : other ∈ (Members.insert rest name value).names ↔ other = name ∨ other ∈ Members.names rest :=
        mem_names_insert
      simp only [names, List.map_cons, List.mem_cons] at hrest ⊢
      rw [hrest, or_left_comm]

theorem nodup_names_insert : ∀ {members : Members}, members.names.Nodup → (members.insert name value).names.Nodup
  | [], _ => List.nodup_singleton _
  | (known, old) :: rest, h => by
    obtain ⟨hknown, hrest⟩ := List.nodup_cons.1 h
    rw [insert]
    split
    · exact h
    · rename_i hne
      refine List.nodup_cons.2 ⟨fun hmem => ?_, nodup_names_insert hrest⟩
      rcases mem_names_insert.1 hmem with heq | hmem
      · exact hne heq
      · exact hknown hmem

end Members

namespace Json

/-- Every object in the value has distinct names. -/
inductive DistinctNames : Json → Prop
  | null : DistinctNames .null
  | bool (value : Bool) : DistinctNames (.bool value)
  | number (value : Number) : DistinctNames (.number value)
  | string (text : String) : DistinctNames (.string text)
  | array {items : List Json} : (∀ item ∈ items, DistinctNames item) → DistinctNames (.array items)
  | object {members : Members} : members.names.Nodup → (∀ member ∈ members, DistinctNames member.2) →
      DistinctNames (.object members)

/-- The values are the same up to the order of the members of objects, at any depth. -/
inductive Reordered : Json → Json → Prop
  | refl (value : Json) : Reordered value value
  | array {as bs : List Json} : as.length = bs.length →
      (∀ (index : Nat) a b, as[index]? = some a → bs[index]? = some b → Reordered a b) →
      Reordered (.array as) (.array bs)
  | object {as bs : Members} : as.names.Nodup → bs.names.Nodup →
      (∀ name, (as.get? name).isSome = (bs.get? name).isSome) →
      (∀ name a b, as.get? name = some a → bs.get? name = some b → Reordered a b) →
      Reordered (.object as) (.object bs)

end Json

/-- Objects with distinct names that are the same up to the order of members. -/
structure Members.Reordered (as bs : Members) : Prop where
  left : as.names.Nodup
  right : bs.names.Nodup
  names : ∀ name, (as.get? name).isSome = (bs.get? name).isSome
  values : ∀ name a b, as.get? name = some a → bs.get? name = some b → a.Reordered b

namespace Json.Reordered

variable {a b : Json} {as bs : Members}

theorem symm (h : a.Reordered b) : b.Reordered a := by
  induction h with
  | refl value => exact .refl value
  | array hlength _ ih => exact .array hlength.symm fun index b a hb ha => ih index a b ha hb
  | object hleft hright hnames _ ih =>
    exact .object hright hleft (fun name => (hnames name).symm) fun name b a hb ha => ih name a b ha hb

theorem ofValue_eq (h : a.Reordered b) : Kind.ofValue a = Kind.ofValue b := by
  cases h <;> rfl

theorem of_members (h : as.Reordered bs) : (Json.object as).Reordered (.object bs) :=
  .object h.left h.right h.names h.values

theorem items {xs ys : List Json} (h : (Json.array xs).Reordered (.array ys)) : List.Forall₂ Reordered xs ys := by
  cases h with
  | refl => exact List.forall₂_same.2 fun x _ => .refl x
  | array hlength hitems =>
    refine List.forall₂_iff_get.2 ⟨hlength, fun index hx hy => ?_⟩
    exact hitems index _ _ (List.getElem?_eq_getElem hx) (List.getElem?_eq_getElem hy)

end Json.Reordered

theorem Json.Reordered.of_items {xs ys : List Json} (h : List.Forall₂ Json.Reordered xs ys) :
    (Json.array xs).Reordered (.array ys) := by
  refine .array h.length_eq fun index x y hx hy => ?_
  obtain ⟨hxlt, rfl⟩ := List.getElem?_eq_some_iff.1 hx
  obtain ⟨hylt, rfl⟩ := List.getElem?_eq_some_iff.1 hy
  exact h.get hxlt hylt

theorem isSome_eq_of_rel {α β : Type} {r : α → β → Prop} {x : Option α} {y : Option β} (h : Option.Rel r x y) :
    x.isSome = y.isSome := by
  cases h <;> rfl

namespace Members.Reordered

variable {as bs : Members} {name : String} {a b : Json}

theorem symm (h : as.Reordered bs) : bs.Reordered as :=
  ⟨h.right, h.left, fun name => (h.names name).symm, fun name b a hb ha => (h.values name a b ha hb).symm⟩

/-- What is looked up in both is the same up to order, or missing from both. -/
theorem rel (h : as.Reordered bs) (name : String) : Option.Rel Json.Reordered (as.get? name) (bs.get? name) := by
  have hnames := h.names name
  have hvalues := h.values name
  revert hnames hvalues
  cases as.get? name <;> cases bs.get? name <;> intro hnames hvalues
  · exact .none
  · cases hnames
  · cases hnames
  · exact .some (hvalues _ _ rfl rfl)

/-- Members in another order. -/
theorem of_perm (hnames : as.names.Nodup) (h : as.Perm bs) : as.Reordered bs := by
  have hsame : as.names.Perm bs.names := h.map Prod.fst
  have hright := hsame.nodup_iff.1 hnames
  refine ⟨hnames, hright, fun name => ?_, fun name a b ha hb => ?_⟩
  · rw [Bool.eq_iff_iff, Members.isSome_get?, Members.isSome_get?, hsame.mem_iff]
  · have hmem := Members.get?_of_mem hright (h.mem_iff.1 (Members.mem_of_get? ha))
    rw [Option.some.inj (hmem.symm.trans hb)]
    exact .refl b

theorem of_rel (hleft : as.names.Nodup) (hright : bs.names.Nodup)
    (h : ∀ name, Option.Rel Json.Reordered (as.get? name) (bs.get? name)) : as.Reordered bs where
  left := hleft
  right := hright
  names name := isSome_eq_of_rel (h name)
  values name a b ha hb := by
    have hname := h name
    rw [ha, hb] at hname
    cases hname
    assumption

theorem names_perm (h : as.Reordered bs) : as.names.Perm bs.names := by
  refine (List.perm_ext_iff_of_nodup h.left h.right).2 fun name => ?_
  rw [← Members.isSome_get?, ← Members.isSome_get?, h.names name]

theorem length_eq (h : as.Reordered bs) : as.length = bs.length := by
  have hlength := h.names_perm.length_eq
  unfold Members.names at hlength
  rwa [List.length_map, List.length_map] at hlength

theorem insert (h : as.Reordered bs) (hvalue : a.Reordered b) : (as.insert name a).Reordered (bs.insert name b) := by
  refine of_rel (nodup_names_insert h.left) (nodup_names_insert h.right) fun other => ?_
  by_cases hother : other = name
  · subst hother
    rw [get?_insert_self, get?_insert_self]
    exact .some hvalue
  · rw [get?_insert_of_ne _ _ hother, get?_insert_of_ne _ _ hother]
    exact h.rel other

end Members.Reordered

end SchemaTypes
