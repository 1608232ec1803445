import SchemaTypes.Building.Process
import SchemaTypes.Proofs.Reference.Parts
/-!
# Levels of a node

How deep building nests below a node, as long as it meets no reference: the levels of a node exceed those of all nodes
that it entrusts to builders (`levels_of_entrusts`).

A node's depth does not do.  A branch takes over the list of types of its node, which may be the deepest part of both,
an abbreviated schema is written out, and a required name that nobody declares gets a schema of its own.  So a list of
types counts for one level, any other list for two at least, and a boolean for three.  A list called `type` may also be
where a property's schema should be, but then building ends at it.

What references may name is listed by `targets`, and a value's depth bounds its levels and those of all its parts.
-/
namespace SchemaTypes

mutual
def Json.levels : Json → Nat
  | .bool _ => 3
  | .object members => levelsOfMembers members + 1
  | _ => 1
def Json.levelsOfMembers : List (String × Json) → Nat
  | [] => 1
  | (name, .array items) :: rest => max (if name = "type" then 1 else levelsOfItems items) (levelsOfMembers rest)
  | (_, value) :: rest => max value.levels (levelsOfMembers rest)
def Json.levelsOfItems : List Json → Nat
  | [] => 2
  | item :: rest => max item.levels (levelsOfItems rest)
end

namespace Building

open Json

theorem two_le_levelsOfItems : ∀ items : List Json, 2 ≤ levelsOfItems items
  | [] => Nat.le_refl 2
  | _ :: rest => Nat.le_trans (two_le_levelsOfItems rest) (Nat.le_max_right _ _)

theorem one_le_levelsOfMembers : ∀ members : Members, 1 ≤ levelsOfMembers members
  | [] => Nat.le_refl 1
  | (_, value) :: rest => by
    have hrest := one_le_levelsOfMembers rest
    cases value <;> exact Nat.le_trans hrest (Nat.le_max_right _ _)

theorem one_le_levels (value : Json) : 1 ≤ value.levels := by
  cases value with
  | bool => exact Nat.le_add_left 1 2
  | object members => exact Nat.le_add_left 1 _
  | _ => exact Nat.le_refl 1

theorem levels_le_items {item : Json} : ∀ {items : List Json}, item ∈ items → item.levels ≤ levelsOfItems items
  | first :: rest, h => by
    rw [levelsOfItems]
    rcases List.mem_cons.1 h with rfl | h
    · exact Nat.le_max_left _ _
    · exact Nat.le_trans (levels_le_items h) (Nat.le_max_right _ _)

theorem levels_le_members {name : String} {value : Json} : ∀ {members : Members}, (name, value) ∈ members →
    value.levels ≤ levelsOfMembers members
  | (n, first) :: rest, h => by
    rcases List.mem_cons.1 h with heq | h
    · obtain ⟨rfl, rfl⟩ := Prod.mk.inj heq
      cases value with
      | array items => exact one_le_levelsOfMembers _
      | _ => exact Nat.le_max_left _ _
    · have hrest := levels_le_members h
      cases first <;> exact Nat.le_trans hrest (Nat.le_max_right _ _)

/-- The items of a list count wherever it is no list of types. -/
theorem items_le_members {name : String} {items : List Json} (hname : name ≠ "type") : ∀ {members : Members},
    (name, .array items) ∈ members → levelsOfItems items ≤ levelsOfMembers members
  | (n, first) :: rest, h => by
    rcases List.mem_cons.1 h with heq | h
    · obtain ⟨rfl, rfl⟩ := Prod.mk.inj heq
      rw [levelsOfMembers, if_neg hname]
      exact Nat.le_max_left _ _
    · have hrest := items_le_members hname h
      cases first <;> exact Nat.le_trans hrest (Nat.le_max_right _ _)

theorem levels_lt_get {node inner : Json} {keyword : String} (h : node.get? keyword = some inner) :
    inner.levels < node.levels := by
  cases node with
  | object members => exact Nat.lt_succ_of_le (levels_le_members (mem_of_lookup h))
  | _ => cases h

theorem levels_lt_member {node inner : Json} {members : Members} {keyword name : String}
    (h : node.get? keyword = some (.object members)) (hmem : (name, inner) ∈ members) : inner.levels < node.levels :=
  Nat.lt_of_le_of_lt (Nat.le_succ_of_le (levels_le_members hmem)) (levels_lt_get h)

theorem levels_lt_item {node inner : Json} {items : List Json} {keyword : String} (hkeyword : keyword ≠ "type")
    (h : node.get? keyword = some (.array items)) (hmem : inner ∈ items) : inner.levels < node.levels := by
  cases node with
  | object members =>
    exact Nat.lt_succ_of_le
      (Nat.le_trans (levels_le_items hmem) (items_le_members hkeyword (mem_of_lookup h)))
  | _ => cases h

/-! ## Nodes made from others -/

/-- The type of a node, if it has one, is a word or a list. -/
def Mild (node : Json) : Prop :=
  ∀ type, node.get? "type" = some type → (∃ word, type = .string word) ∨ ∃ types, type = .array types

theorem levels_insert_type {type : Json} (h : (∃ word, type = .string word) ∨ ∃ types, type = .array types) :
    ∀ members : Members, levelsOfMembers (members.insert "type" type) ≤ levelsOfMembers members := by
  have hone : ∀ rest : Members, levelsOfMembers (("type", type) :: rest) = max 1 (levelsOfMembers rest) := by
    intro rest
    rcases h with ⟨word, rfl⟩ | ⟨types, rfl⟩
    · rw [levelsOfMembers, levels]
      · exact fun _ h => nomatch h
      · exact fun _ h => nomatch h
      · exact fun _ h => nomatch h
    · rw [levelsOfMembers, if_pos rfl]
  intro members
  induction members with
  | nil =>
    rw [Members.insert, hone, levelsOfMembers]
    exact Nat.le_refl _
  | cons member rest ih =>
    obtain ⟨name, value⟩ := member
    rw [Members.insert]
    split
    · rename_i heq
      subst heq
      rw [hone]
      have hrest := one_le_levelsOfMembers rest
      refine Nat.max_le.2 ⟨one_le_levelsOfMembers _, ?_⟩
      cases value <;> exact Nat.le_max_right _ _
    · cases value <;>
        exact Nat.max_le.2 ⟨Nat.le_max_left _ _, Nat.le_trans ih (Nat.le_max_right _ _)⟩

theorem levels_ofBool (value : Bool) : (Keyword.ofBool value).levels ≤ (Json.bool value).levels := by
  cases value with
  | true => decide
  | false => decide

theorem levels_withObjectType (node : Json) : (Keyword.withObjectType node).levels ≤ node.levels := by
  unfold Keyword.withObjectType
  split
  · split
    · exact Nat.le_refl _
    · exact Nat.succ_le_succ (levels_insert_type (Or.inl ⟨_, rfl⟩) _)
  · decide
  · decide
  · exact Nat.le_refl _

theorem levels_inheritType_object {node : Json} (hnode : Mild node) (members : Members) :
    (Keyword.inheritType node (.object members)).levels ≤ (Json.object members).levels := by
  simp only [Keyword.inheritType]
  split
  · rename_i type others htype hothers
    obtain rfl := Json.object.inj hothers
    split
    · exact Nat.le_refl _
    · exact Nat.succ_le_succ (levels_insert_type (hnode type htype) _)
  · exact Nat.le_refl _

/-- A branch has no more levels for the type that it takes over. -/
theorem levels_inheritType {node : Json} (hnode : Mild node) (inner : Json) :
    (Keyword.inheritType node inner).levels ≤ inner.levels := by
  have hobject := levels_inheritType_object hnode
  cases inner with
  | object members => exact hobject members
  | bool value =>
    refine Nat.le_trans ?_ (levels_ofBool value)
    cases value with
    | true => exact hobject []
    | false => exact hobject [("not", .object [])]
  | _ =>
    unfold Keyword.inheritType
    simp only
    split
    · rename_i heq
      cases heq
    · exact Nat.le_refl _

/-- The node without abbreviation. -/
def writtenOut : Json → Json
  | .bool value => Keyword.ofBool value
  | node => node

theorem isObject_ofBool (value : Bool) : (Keyword.ofBool value).isObject = true := by
  cases value <;> rfl

theorem get?_writtenOut {node reference : Json} (h : (writtenOut node).get? "$ref" = some reference) :
    node.get? "$ref" = some reference := by
  cases node with
  | bool value => cases value <;> cases h
  | _ => exact h

theorem references_writtenOut (node : Json) : references (writtenOut node) ⊆ references node := by
  cases node with
  | bool value => exact references_ofBool value ▸ List.nil_subset _
  | _ => exact List.Subset.refl _

theorem levels_writtenOut (node : Json) : (writtenOut node).levels ≤ node.levels := by
  cases node with
  | bool value => exact levels_ofBool value
  | _ => exact Nat.le_refl _

theorem writtenOut_of_get? {node reference : Json} (h : node.get? "$ref" = some reference) :
    writtenOut node = node := by
  cases node with
  | bool => cases h
  | _ => rfl

/-- An object node has the type of an object or none. -/
theorem mild_of_isObject {node : Json} (h : Keyword.isObject node = true) : Mild node := by
  intro type htype
  unfold Keyword.isObject at h
  rw [htype] at h
  cases type with
  | string word => exact Or.inl ⟨word, rfl⟩
  | _ => cases h

theorem isObject_of_isObject {node : Json} (h : Keyword.isObject node = true) : node.isObject = true := by
  cases node with
  | object => rfl
  | _ => cases h

/-- So has the root of a document that is no reference. -/
theorem mild_of_root {node : Json} (h : (Keyword.isObject node || (node.isObject && !node.has "type")) = true) :
    Mild node ∧ node.isObject = true := by
  rcases Bool.or_eq_true_iff.1 h with h | h
  · exact ⟨mild_of_isObject h, isObject_of_isObject h⟩
  · rw [Bool.and_eq_true, Bool.not_eq_true', Json.has, Option.isSome_eq_false_iff, Option.isNone_iff_eq_none] at h
    exact ⟨fun type htype => (nomatch h.2.symm.trans htype), h.1⟩

/-! ## What a node entrusts to builders -/

/-- The property of the second node is built on the way to that of the first, or of its type. -/
inductive Entrusts (node : Json) : Json → Prop
  | hands {inner : Json} : Hands node inner → Entrusts node inner
  /-- A required name that nobody declares. -/
  | wanted {names : List Json} : node.get? "required" = some (.array names) → Entrusts node (.object [])
  | whole {inner : Json} {keyword : String} : keyword ∈ ["not", "if", "then", "else"] →
    node.get? keyword = some inner → Entrusts node (Keyword.withObjectType inner)
  | wholes {inner : Json} {items : List Json} {keyword : String} : keyword ∈ ["allOf", "anyOf", "oneOf"] →
    node.get? keyword = some (.array items) → inner ∈ items → Entrusts node (Keyword.withObjectType inner)

theorem levels_of_hands {node inner : Json} (h : Hands node inner) (hnode : Mild node)
    (hobject : node.isObject = true) : inner.levels < node.levels := by
  cases h with
  | abbreviated => cases hobject
  | member _ hget hmem => exact levels_lt_member hget hmem
  | value _ hget => exact levels_lt_get hget
  | item hget hmem => exact levels_lt_item (by decide) hget hmem
  | dependency _ hget hmem => exact Nat.lt_of_le_of_lt (levels_withObjectType _) (levels_lt_member hget hmem)
  | branch _ hget => exact Nat.lt_of_le_of_lt (levels_inheritType hnode _) (levels_lt_get hget)
  | branches hkeyword hget hmem =>
    refine Nat.lt_of_le_of_lt (levels_inheritType hnode _) (levels_lt_item ?_ hget hmem)
    rintro rfl
    exact absurd hkeyword (by decide)

/-- **Building goes down by a level at least** with each node that it is entrusted with. -/
theorem levels_of_entrusts {node inner : Json} (h : Entrusts node inner) (hnode : Mild node)
    (hobject : node.isObject = true) : inner.levels < node.levels := by
  cases h with
  | hands h => exact levels_of_hands h hnode hobject
  | wanted hget =>
    cases node with
    | object members =>
      exact Nat.succ_lt_succ (Nat.le_trans (two_le_levelsOfItems _) (items_le_members (by decide) (mem_of_lookup hget)))
    | _ => cases hget
  | whole _ hget => exact Nat.lt_of_le_of_lt (levels_withObjectType _) (levels_lt_get hget)
  | wholes hkeyword hget hmem =>
    refine Nat.lt_of_le_of_lt (levels_withObjectType _) (levels_lt_item ?_ hget hmem)
    rintro rfl
    exact absurd hkeyword (by decide)

theorem references_of_entrusts {node inner : Json} (h : Entrusts node inner) : references inner ⊆ references node := by
  cases h with
  | hands h => exact references_of_hands h
  | wanted => exact List.nil_subset _
  | whole _ hget => exact List.Subset.trans (references_withObjectType _) (references_subset_get hget)
  | wholes _ hget hmem =>
    exact List.Subset.trans (references_withObjectType _) (references_item_of_get hget hmem)

/-- Without compositions, a node entrusts nothing more. -/
theorem entrusts_of_withoutCompositions {node inner : Json} (h : Entrusts (Keyword.withoutCompositions node) inner) :
    Entrusts node inner := by
  cases h with
  | hands h => exact .hands (hands_of_withoutCompositions h)
  | wanted hget => exact .wanted (get?_withoutCompositions hget).2
  | whole hkeyword hget => exact .whole hkeyword (get?_withoutCompositions hget).2
  | wholes hkeyword hget hmem => exact .wholes hkeyword (get?_withoutCompositions hget).2 hmem

/-! ## Depth -/

theorem depth_le_items {item : Json} : ∀ {items : List Json}, item ∈ items → item.depth ≤ depthOfItems items
  | first :: rest, h => by
    rw [depthOfItems]
    rcases List.mem_cons.1 h with rfl | h
    · exact Nat.le_max_left _ _
    · exact Nat.le_trans (depth_le_items h) (Nat.le_max_right _ _)

theorem depth_le_members {name : String} {value : Json} : ∀ {members : Members}, (name, value) ∈ members →
    value.depth ≤ depthOfMembers members
  | (n, first) :: rest, h => by
    rw [depthOfMembers]
    rcases List.mem_cons.1 h with heq | h
    · obtain ⟨rfl, rfl⟩ := Prod.mk.inj heq
      exact Nat.le_max_left _ _
    · exact Nat.le_trans (depth_le_members h) (Nat.le_max_right _ _)

mutual
theorem levels_le_depth : ∀ value : Json, value.levels ≤ value.depth + 3
  | .null | .number _ | .string _ | .array _ => Nat.le_add_left 1 _
  | .bool _ => Nat.le_refl 3
  | .object members => Nat.succ_le_succ (levelsOfMembers_le_depth members)
theorem levelsOfMembers_le_depth : ∀ members : List (String × Json),
    levelsOfMembers members ≤ depthOfMembers members + 3
  | [] => Nat.le_add_left 1 2
  | (name, .array items) :: rest => by
    have hitems := levelsOfItems_le_depth items
    have hrest := levelsOfMembers_le_depth rest
    rw [levelsOfMembers, depthOfMembers, depth]
    split <;> omega
  | (_, .object members) :: rest => by
    have hmembers := levelsOfMembers_le_depth members
    have hrest := levelsOfMembers_le_depth rest
    change max (levelsOfMembers members + 1) (levelsOfMembers rest) ≤
      max (depthOfMembers members + 1) (depthOfMembers rest) + 3
    omega
  | (_, .null) :: rest | (_, .bool _) :: rest | (_, .number _) :: rest | (_, .string _) :: rest => by
    have hrest := levelsOfMembers_le_depth rest
    change max _ (levelsOfMembers rest) ≤ max 0 (depthOfMembers rest) + 3
    simp only [levels]
    omega
theorem levelsOfItems_le_depth : ∀ items : List Json, levelsOfItems items ≤ depthOfItems items + 3
  | [] => Nat.le_add_left 2 1
  | item :: rest => by
    rw [levelsOfItems, depthOfItems]
    have hitem := levels_le_depth item
    have hrest := levelsOfItems_le_depth rest
    omega
end

end Building
end SchemaTypes
