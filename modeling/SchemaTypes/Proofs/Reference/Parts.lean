import SchemaTypes.Building.Objects
import SchemaTypes.Proofs.Reference.Leads
/-!
# Parts of a node

The nodes that building hands on, with what it makes of them on the way: an abbreviated schema is written out, a
dependency gets the type of an object, a branch the type of its node.

A node is plain if it spells no references, and no object in it combines schemas.  On an object the branches are named
by the class that they belong to, which is what sets apart types that are otherwise written alike.
-/
namespace SchemaTypes.Building

/-- The property of the second node is built on the way to that of the first. -/
inductive Hands : Json → Json → Prop
  | abbreviated (value : Bool) : Hands (.bool value) (Keyword.ofBool value)
  | member {node inner : Json} {members : Members} {keyword name : String} :
    keyword ∈ ["properties", "patternProperties"] → node.get? keyword = some (.object members) →
    (name, inner) ∈ members → Hands node inner
  | value {node inner : Json} {keyword : String} :
    keyword ∈ ["additionalProperties", "propertyNames", "items", "additionalItems", "contains"] →
    node.get? keyword = some inner → Hands node inner
  | item {node inner : Json} {items : List Json} : node.get? "items" = some (.array items) → inner ∈ items →
    Hands node inner
  | dependency {node inner : Json} {members : Members} {keyword name : String} : keyword ∈ dependencyWords →
    node.get? keyword = some (.object members) → (name, inner) ∈ members → Hands node (Keyword.withObjectType inner)
  | branch {node inner : Json} {keyword : String} : keyword ∈ ["not", "if", "then", "else"] →
    node.get? keyword = some inner → Hands node (Keyword.inheritType node inner)
  | branches {node inner : Json} {items : List Json} {keyword : String} : keyword ∈ ["allOf", "anyOf", "oneOf"] →
    node.get? keyword = some (.array items) → inner ∈ items → Hands node (Keyword.inheritType node inner)

/-- No object that is built on the way combines schemas. -/
def Uncombined (node : Json) : Prop :=
  ∀ inner, Relation.ReflTransGen Hands node inner → Keyword.isObject inner = true →
    ∀ word ∈ Keyword.compositionWords, inner.get? word = none

structure Plain (node : Json) : Prop where
  references : references node = []
  uncombined : Uncombined node

theorem references_member_of_get {node inner : Json} {members : Members} {keyword name : String}
    (hget : node.get? keyword = some (.object members)) (hmem : (name, inner) ∈ members) :
    references inner ⊆ references node :=
  List.Subset.trans (references_member hmem) (references_subset_get hget)

theorem references_item_of_get {node inner : Json} {items : List Json} {keyword : String}
    (hget : node.get? keyword = some (.array items)) (hmem : inner ∈ items) :
    references inner ⊆ references node := by
  refine List.Subset.trans ?_ (references_subset_get hget)
  rw [references]
  exact references_subset_items hmem

theorem references_of_hands {node inner : Json} (h : Hands node inner) : references inner ⊆ references node := by
  cases h with
  | abbreviated value =>
    rw [references_ofBool]
    exact List.nil_subset _
  | member _ hget hmem => exact references_member_of_get hget hmem
  | value _ hget => exact references_subset_get hget
  | item hget hmem => exact references_item_of_get hget hmem
  | dependency _ hget hmem =>
    exact List.Subset.trans (references_withObjectType _) (references_member_of_get hget hmem)
  | branch _ hget => exact references_branch (List.Subset.refl _) (references_subset_get hget)
  | branches _ hget hmem => exact references_branch (List.Subset.refl _) (references_item_of_get hget hmem)

theorem Plain.hands {node inner : Json} (h : Plain node) (hhands : Hands node inner) : Plain inner where
  references := List.subset_nil.1 (h.references ▸ references_of_hands hhands)
  uncombined other hreach := h.uncombined other (.head hhands hreach)

/-- A plain object combines no schemas. -/
theorem Plain.get?_eq_none {node : Json} (h : Plain node) (hobject : Keyword.isObject node = true) :
    ∀ word ∈ Keyword.compositionWords, node.get? word = none := h.uncombined node .refl hobject

/-- A plain node is no reference. -/
theorem Plain.get?_reference {node : Json} (h : Plain node) (text : String) :
    node.get? "$ref" ≠ some (.string text) := by
  intro hget
  have hmem := mem_references_of_get hget
  rw [h.references] at hmem
  exact List.not_mem_nil hmem

/-- An object that only declares properties is plain if these are. -/
theorem plain_of_properties {members : Members} (hreferences : references (.object members) = [])
    (hothers : ∀ keyword, keyword ∉ ["type", "properties", "required"] → (Json.object members).get? keyword = none)
    (h : ∀ properties, (Json.object members).get? "properties" = some (.object properties) →
      ∀ property ∈ properties, Plain property.2) : Plain (.object members) := by
  have hnever : ∀ {keyword : String} {value : Json} {words : List String},
      (∀ word ∈ words, word ∉ ["type", "properties", "required"]) → keyword ∈ words →
      (Json.object members).get? keyword ≠ some value :=
    fun hwords hkeyword hget => nomatch (hothers _ (hwords _ hkeyword)).symm.trans hget
  have hcompositions : ∀ word ∈ Keyword.compositionWords, word ∉ ["type", "properties", "required"] := by decide
  have hparts : ∀ inner, Hands (.object members) inner → Plain inner := by
    intro inner hhands
    cases hhands with
    | member hkeyword hget hmem =>
      simp only [List.mem_cons, List.not_mem_nil, or_false] at hkeyword
      rcases hkeyword with rfl | rfl
      · exact h _ hget _ hmem
      · exact nomatch (hothers _ (by decide)).symm.trans hget
    | value hkeyword hget => exact absurd hget (hnever (by decide) hkeyword)
    | item hget => exact nomatch (hothers _ (by decide)).symm.trans hget
    | dependency hkeyword hget => exact absurd hget (hnever (by decide) hkeyword)
    | branch hkeyword hget => exact absurd hget (hnever (by decide) hkeyword)
    | branches hkeyword hget => exact absurd hget (hnever (by decide) hkeyword)
  refine ⟨hreferences, fun inner hreach hobject word hword => ?_⟩
  rcases Relation.ReflTransGen.cases_head hreach with rfl | ⟨middle, hhands, hreach⟩
  · exact hothers word (hcompositions word hword)
  · exact (hparts middle hhands).uncombined inner hreach hobject word hword

theorem plain_empty : Plain (.object []) := plain_of_properties rfl (fun _ _ => rfl) fun _ hget => nomatch hget

/-! ## Without compositions -/

theorem get?_withoutCompositions {node : Json} {keyword : String} {value : Json}
    (h : (Keyword.withoutCompositions node).get? keyword = some value) :
    keyword ∉ Keyword.compositionWords ∧ node.get? keyword = some value := by
  cases node with
  | object members =>
    change List.lookup keyword (members.filter fun member => !Keyword.compositionWords.contains member.1) = _ at h
    change _ ∧ List.lookup keyword members = _
    induction members with
    | nil => cases h
    | cons member rest ih =>
      obtain ⟨name, first⟩ := member
      rw [List.filter_cons] at h
      rw [List.lookup_cons]
      split at h
      · rename_i hname
        rw [List.lookup_cons] at h
        split at h
        · rename_i heq
          rw [eq_of_beq heq]
          exact ⟨by simpa using hname, h⟩
        · exact ih h
      · rename_i hname
        obtain ⟨hword, hrest⟩ := ih h
        have hne : (keyword == name) = false := by
          refine beq_false_of_ne fun heq => hname ?_
          simpa [← heq] using hword
        rw [hne]
        exact ⟨hword, hrest⟩
  | _ => cases h

theorem hands_of_withoutCompositions {node inner : Json} (h : Hands (Keyword.withoutCompositions node) inner) :
    Hands node inner := by
  generalize hnode : Keyword.withoutCompositions node = bare at h
  cases h with
  | abbreviated value =>
    cases node with
    | bool value' =>
      cases hnode
      exact .abbreviated value
    | _ => cases hnode
  | member hkeyword hget hmem => exact .member hkeyword (get?_withoutCompositions (hnode ▸ hget)).2 hmem
  | value hkeyword hget => exact .value hkeyword (get?_withoutCompositions (hnode ▸ hget)).2
  | item hget hmem => exact .item (get?_withoutCompositions (hnode ▸ hget)).2 hmem
  | dependency hkeyword hget hmem => exact .dependency hkeyword (get?_withoutCompositions (hnode ▸ hget)).2 hmem
  | branch hkeyword hget =>
    refine absurd ?_ (get?_withoutCompositions (hnode ▸ hget)).1
    exact List.mem_of_mem_drop (i := 3) hkeyword
  | branches hkeyword hget hmem =>
    refine absurd ?_ (get?_withoutCompositions (hnode ▸ hget)).1
    exact List.mem_of_mem_take (i := 3) hkeyword

/-- What is left of a plain node without its compositions is plain, and has none. -/
theorem Plain.withoutCompositions {node : Json} (h : Plain node) :
    Plain (Keyword.withoutCompositions node) ∧
      ∀ word ∈ Keyword.compositionWords, (Keyword.withoutCompositions node).get? word = none := by
  have hbare : ∀ word ∈ Keyword.compositionWords, (Keyword.withoutCompositions node).get? word = none := by
    intro word hword
    cases hget : (Keyword.withoutCompositions node).get? word with
    | none => rfl
    | some value => exact absurd hword (get?_withoutCompositions hget).1
  refine ⟨⟨List.subset_nil.1 (h.references ▸ references_withoutCompositions node), fun inner hreach hobject => ?_⟩,
    hbare⟩
  rcases Relation.ReflTransGen.cases_head hreach with rfl | ⟨middle, hhands, hreach⟩
  · exact hbare
  · exact h.uncombined inner (.head (hands_of_withoutCompositions hhands) hreach) hobject

end SchemaTypes.Building
