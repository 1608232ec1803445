import Mathlib.Logic.Relation
import SchemaTypes.Building.References
/-!
# Where references lead

A definition refers to another if some `$ref` in its node, however deep, resolves to it.  Following such
references is what nests building: while a definition is being built, everything that is met on the way is
something it leads to (`Leads`).

A definition whose node is nothing but a reference is an alias.  `NoAliasCycle` says of a set of documents that
no alias of something other than an object is led to by what it stands for.

A reference that resolves to nothing is broken, in the document that it is written in.  `Broken` follows references
from what one document spells to the broken ones behind.
-/
namespace SchemaTypes.Building

/-! ## The references a value spells -/

/-- The reference that a member is. -/
def ownReference : String × Json → List String
  | ("$ref", .string text) => [text]
  | _ => []

mutual
/-- The references anywhere in a value. -/
def references : Json → List String
  | .array items => referencesOfItems items
  | .object members => referencesOfMembers members
  | _ => []
def referencesOfItems : List Json → List String
  | [] => []
  | item :: rest => references item ++ referencesOfItems rest
def referencesOfMembers : List (String × Json) → List String
  | [] => []
  | (name, value) :: rest => ownReference (name, value) ++ (references value ++ referencesOfMembers rest)
end

theorem references_subset_items {item : Json} : ∀ {items : List Json}, item ∈ items →
    references item ⊆ referencesOfItems items
  | first :: rest, h, r, hr => by
    rw [referencesOfItems, List.mem_append]
    rcases List.mem_cons.1 h with rfl | h
    · exact Or.inl hr
    · exact Or.inr (references_subset_items h hr)

theorem references_subset_members {name : String} {value : Json} : ∀ {members : List (String × Json)},
    (name, value) ∈ members → references value ⊆ referencesOfMembers members
  | (n, v) :: rest, h, r, hr => by
    rw [referencesOfMembers, List.mem_append, List.mem_append]
    rcases List.mem_cons.1 h with heq | h
    · obtain ⟨rfl, rfl⟩ := Prod.mk.inj heq
      exact Or.inr (Or.inl hr)
    · exact Or.inr (Or.inr (references_subset_members h hr))

theorem ownReference_subset {member : String × Json} : ∀ {members : List (String × Json)}, member ∈ members →
    ownReference member ⊆ referencesOfMembers members
  | (n, v) :: rest, h, r, hr => by
    rw [referencesOfMembers, List.mem_append, List.mem_append]
    rcases List.mem_cons.1 h with rfl | h
    · exact Or.inl hr
    · exact Or.inr (Or.inr (ownReference_subset h hr))

/-- Fewer members spell fewer references. -/
theorem referencesOfMembers_subset {members others : List (String × Json)} (h : members ⊆ others) :
    referencesOfMembers members ⊆ referencesOfMembers others := by
  induction members with
  | nil => exact fun r hr => absurd hr (by rw [referencesOfMembers]; exact List.not_mem_nil)
  | cons member rest ih =>
    intro r hr
    obtain ⟨name, value⟩ := member
    rw [referencesOfMembers, List.mem_append, List.mem_append] at hr
    rcases hr with hr | hr | hr
    · exact ownReference_subset (h List.mem_cons_self) hr
    · exact references_subset_members (h List.mem_cons_self) hr
    · exact ih (fun x hx => h (List.mem_cons_of_mem _ hx)) hr

theorem references_member {members : Members} {member : String × Json} (h : member ∈ members) :
    references member.2 ⊆ references (.object members) := by
  obtain ⟨name, value⟩ := member
  rw [references]
  exact references_subset_members h

theorem mem_of_lookup {α β : Type} [BEq α] [LawfulBEq α] {key : α} {value : β} : ∀ {entries : List (α × β)},
    entries.lookup key = some value → (key, value) ∈ entries
  | (k, v) :: rest, h => by
    rw [List.lookup_cons] at h
    split at h
    · rename_i heq
      rw [eq_of_beq heq]
      cases h
      exact List.mem_cons_self
    · exact List.mem_cons_of_mem _ (mem_of_lookup h)

theorem references_subset_get {node value : Json} {name : String} (h : node.get? name = some value) :
    references value ⊆ references node := by
  cases node with
  | object members =>
    rw [references]
    exact references_subset_members (mem_of_lookup h)
  | _ => cases h

/-- A node's own reference is one it spells. -/
theorem mem_references_of_get {node : Json} {text : String} (h : node.get? "$ref" = some (.string text)) :
    text ∈ references node := by
  cases node with
  | object members =>
    rw [references]
    exact ownReference_subset (mem_of_lookup h) List.mem_cons_self
  | _ => cases h

/-! ## Nodes made from others -/

theorem references_ofBool (value : Bool) : references (Keyword.ofBool value) = [] := by
  cases value <;> rfl

theorem referencesOfMembers_insert {name : String} (value : Json) (h : name ≠ "$ref") :
    ∀ members : Members, referencesOfMembers (members.insert name value) ⊆
      references value ++ referencesOfMembers members
  | [], r, hr => by
    have hown : ownReference (name, value) = [] := by
      unfold ownReference
      split
      · rename_i heq
        exact absurd (Prod.mk.inj heq).1 h
      · rfl
    rw [Members.insert, referencesOfMembers, hown] at hr
    exact hr
  | (n, v) :: rest, r, hr => by
    have hown : ∀ w : Json, ownReference (name, w) = [] := by
      intro w
      unfold ownReference
      split
      · rename_i heq
        exact absurd (Prod.mk.inj heq).1 h
      · rfl
    rw [Members.insert] at hr
    split at hr
    · rename_i heq
      subst heq
      rw [referencesOfMembers, hown] at hr
      rw [referencesOfMembers, hown]
      simp only [List.nil_append, List.mem_append] at hr ⊢
      rcases hr with hr | hr
      · exact Or.inl hr
      · exact Or.inr (Or.inr hr)
    · rw [referencesOfMembers] at hr ⊢
      simp only [List.mem_append] at hr ⊢
      rcases hr with hr | hr | hr
      · exact Or.inr (Or.inl hr)
      · exact Or.inr (Or.inr (Or.inl hr))
      · rcases List.mem_append.1 (referencesOfMembers_insert value h rest hr) with hr | hr
        · exact Or.inl hr
        · exact Or.inr (Or.inr (Or.inr hr))

theorem references_withObjectType (node : Json) :
    references (Keyword.withObjectType node) ⊆ references node := by
  unfold Keyword.withObjectType
  split
  · rename_i members
    split
    · exact List.Subset.refl _
    · rw [references, references]
      exact List.Subset.trans (referencesOfMembers_insert _ (by decide) members) (by simp [references])
  · exact List.nil_subset _
  · exact List.nil_subset _
  · exact List.Subset.refl _

theorem references_withoutCompositions (node : Json) :
    references (Keyword.withoutCompositions node) ⊆ references node := by
  unfold Keyword.withoutCompositions
  split
  · rw [references, references]
    exact referencesOfMembers_subset (List.filter_sublist.subset)
  · exact List.Subset.refl _

theorem references_inheritType_object (node : Json) (members : Members) :
    references (Keyword.inheritType node (.object members)) ⊆ references node ++ references (.object members) := by
  simp only [Keyword.inheritType]
  split
  · rename_i type others htype hothers
    obtain rfl := Json.object.inj hothers
    split
    · exact List.subset_append_right _ _
    · rw [references, references]
      refine List.Subset.trans (referencesOfMembers_insert _ (by decide) members) ?_
      exact List.append_subset.2 ⟨List.subset_append_of_subset_left _ (references_subset_get htype),
        List.subset_append_right _ _⟩
  · exact List.subset_append_right _ _

/-- A branch spells no references but its own and those of the node it takes its type from. -/
theorem references_inheritType (node branch : Json) :
    references (Keyword.inheritType node branch) ⊆ references node ++ references branch := by
  cases branch with
  | object members => exact references_inheritType_object node members
  | bool value =>
    have hsubset : ∀ members : Members, references (.object members) = [] →
        references (Keyword.inheritType node (.object members)) ⊆ references node ++ references (.bool value) := by
      intro members hnone
      refine List.Subset.trans (references_inheritType_object node members) ?_
      rw [hnone, List.append_nil]
      exact List.subset_append_left _ _
    cases value with
    | true => exact hsubset [] rfl
    | false => exact hsubset [("not", .object [])] rfl
  | _ =>
    have hsame : ∀ other : Json, (∀ members, other ≠ .object members) → (∀ value, other ≠ .bool value) →
        Keyword.inheritType node other = other := by
      intro other hobject hbool
      simp only [Keyword.inheritType]
      cases other with
      | object members => exact absurd rfl (hobject members)
      | bool value => exact absurd rfl (hbool value)
      | _ => split <;> first | rfl | (rename_i heq; cases heq)
    rw [hsame _ (fun _ => Json.noConfusion) (fun _ => Json.noConfusion)]
    exact List.subset_append_right _ _

theorem references_branch {node inner : Json} {spelled : List String} (hr : references node ⊆ spelled)
    (hinner : references inner ⊆ references node) : references (Keyword.inheritType node inner) ⊆ spelled :=
  List.Subset.trans (references_inheritType node inner)
    (List.append_subset.2 ⟨hr, List.Subset.trans hinner hr⟩)

/-! ## Definitions that lead to others -/

/-- What a reference points to from within a document. -/
def targetIn? (documents : Reference.Documents) (document reference : String) : Option Target :=
  target? documents ⟨document, "", ""⟩ reference

theorem target?_eq (documents : Reference.Documents) (scope : Scope) (reference : String) :
    target? documents scope reference = targetIn? documents scope.document reference := rfl

/-- The node a definition's key addresses. -/
def nodeAt? (documents : Reference.Documents) (key : DefinitionKey) : Option Json :=
  (documents.get? key.document).bind fun document => Reference.lookup? document.value key.pointer

/-- No two documents are stored under one key. -/
def Distinct (documents : Reference.Documents) : Prop := (documents.map (·.key)).Nodup

/-- The node of a definition spells a reference to the other. -/
def Refers (documents : Reference.Documents) (a b : DefinitionKey) : Prop :=
  ∃ node, nodeAt? documents a = some node ∧
    ∃ reference ∈ references node, ∃ target, targetIn? documents a.document reference = some target ∧ target.key = b

/-- A way along references. -/
abbrev Leads (documents : Reference.Documents) : DefinitionKey → DefinitionKey → Prop :=
  Relation.TransGen (Refers documents)

/-- A definition that is no object. -/
def IsPlain (documents : Reference.Documents) (key : DefinitionKey) : Prop :=
  ∃ node, nodeAt? documents key = some node ∧ Keyword.isObject node = false

/-- A definition that is nothing but a reference to the other. -/
def IsAlias (documents : Reference.Documents) (a b : DefinitionKey) : Prop :=
  ∃ node, nodeAt? documents a = some node ∧ Keyword.isObject node = false ∧
    ∃ reference target, node.get? "$ref" = some (.string reference) ∧
      targetIn? documents a.document reference = some target ∧ target.key = b

/-- The node has no keyword that asks something of a value as a whole. -/
def IsBare (node : Json) : Prop := node.get? "enum" = none ∧ node.get? "const" = none ∧ node.get? "filter" = none

/-- A definition whose node is bare, wherever it is. -/
def BareAt (documents : Reference.Documents) (key : DefinitionKey) : Prop :=
  ∀ node, nodeAt? documents key = some node → IsBare node

/-- No alias of something other than an object is led to by what it stands for. -/
def NoAliasCycle (documents : Reference.Documents) : Prop :=
  ∀ a b, IsAlias documents a b → IsPlain documents b → ¬ Leads documents b a

theorem Distinct.insert {documents : Reference.Documents} (h : Distinct documents)
    (document : Reference.Document) : Distinct (documents.insert document) := by
  unfold Distinct Reference.Documents.insert
  rw [List.map_append, List.nodup_append]
  refine ⟨List.Nodup.sublist (List.Sublist.map _ List.filter_sublist) h, List.pairwise_singleton _ _, ?_⟩
  intro key hkey other hother
  obtain ⟨stored, hstored, rfl⟩ := List.mem_map.1 hkey
  rw [List.map_singleton, List.mem_singleton] at hother
  rw [hother]
  simpa using (List.mem_filter.1 hstored).2

theorem get?_of_mem {documents : Reference.Documents} (h : Distinct documents) {document : Reference.Document}
    (hmem : document ∈ documents) : documents.get? document.key = some document := by
  unfold Reference.Documents.get?
  induction documents with
  | nil => cases hmem
  | cons first rest ih =>
    unfold Distinct at h
    rw [List.map_cons, List.nodup_cons] at h
    rw [List.find?_cons]
    rcases List.mem_cons.1 hmem with rfl | hmem
    · simp
    · have hne : first.key ≠ document.key := fun heq => h.1 (heq ▸ List.mem_map_of_mem hmem)
      simp only [hne, decide_false]
      exact ih h.2 hmem

theorem mem_of_get? {documents : Reference.Documents} {key : String} {document : Reference.Document}
    (h : documents.get? key = some document) : document ∈ documents ∧ document.key = key := by
  unfold Reference.Documents.get? at h
  exact ⟨List.mem_of_find?_eq_some h, by simpa using List.find?_some h⟩

theorem mem_of_locate? {documents : Reference.Documents} {reference : String} {document : Reference.Document}
    (h : documents.locate? reference = some document) : document ∈ documents := by
  unfold Reference.Documents.locate? at h
  rcases hget : documents.get? reference with _ | found
  · rw [hget] at h
    rcases hname : documents.find? (fun document =>
        Reference.Documents.fileName document.key = Reference.Documents.fileName reference) with _ | named
    · rw [hname] at h
      exact List.mem_of_find?_eq_some h
    · rw [hname] at h
      cases h
      exact List.mem_of_find?_eq_some hname
  · rw [hget] at h
    cases h
    exact (mem_of_get? hget).1

/-- A target is a node of a stored document. -/
theorem targetIn?_spec {documents : Reference.Documents} {document reference : String} {target : Target}
    (h : targetIn? documents document reference = some target) :
    ∃ stored ∈ documents, stored.key = target.key.document ∧
      Reference.lookup? stored.value target.key.pointer = some target.node := by
  unfold targetIn? target? at h
  simp only at h
  split at h
  · obtain ⟨stored, hstored, h⟩ := Option.bind_eq_some_iff.1 h
    obtain ⟨node, hnode, h⟩ := Option.bind_eq_some_iff.1 h
    cases h
    exact ⟨stored, (mem_of_get? hstored).1, rfl, hnode⟩
  · obtain ⟨stored, hstored, h⟩ := Option.bind_eq_some_iff.1 h
    obtain ⟨node, hnode, h⟩ := Option.bind_eq_some_iff.1 h
    cases h
    exact ⟨stored, mem_of_locate? hstored, rfl, hnode⟩

theorem nodeAt?_target {documents : Reference.Documents} (hd : Distinct documents) {document reference : String}
    {target : Target} (h : targetIn? documents document reference = some target) :
    nodeAt? documents target.key = some target.node := by
  obtain ⟨stored, hmem, hkey, hnode⟩ := targetIn?_spec h
  unfold nodeAt?
  rw [← hkey, get?_of_mem hd hmem]
  exact hnode

/-! ## Broken references -/

/-- From the references spelled in a document, others lead to a broken one: each is looked up in the document that
holds the node which spells it. -/
inductive Broken (documents : Reference.Documents) : String → List String → String → Prop
  | here {document reference : String} {spelled : List String} : reference ∈ spelled →
    targetIn? documents document reference = none → Broken documents document spelled reference
  | behind {document other reference : String} {spelled : List String} {target : Target} : other ∈ spelled →
    targetIn? documents document other = some target →
    Broken documents target.key.document (references target.node) reference →
    Broken documents document spelled reference

/-! ## Documents without references to references -/

theorem references_subset_step {value next : Json} {token : List Char}
    (h : Reference.step? value token = some next) : references next ⊆ references value := by
  cases value with
  | object members =>
    have hget : (Json.object members).get? (String.ofList token) = some next := h
    exact references_subset_get hget
  | array items =>
    obtain ⟨index, _, hitem⟩ := Option.bind_eq_some_iff.1 h
    rw [references]
    exact references_subset_items (List.mem_of_getElem? hitem)
  | _ => cases h

theorem references_subset_fold : ∀ (tokens : List (List Char)) {value next : Json},
    tokens.foldl (fun value? token => value?.bind (Reference.step? · token)) (some value) = some next →
      references next ⊆ references value
  | [], value, next, h => by
    cases h
    exact List.Subset.refl _
  | token :: tokens, value, next, h => by
    rw [List.foldl_cons, Option.bind_some] at h
    cases hstep : Reference.step? value token with
    | none =>
      rw [hstep] at h
      have hnone : ∀ tokens : List (List Char),
          tokens.foldl (fun value? token => value?.bind (Reference.step? · token)) none = none := by
        intro tokens
        induction tokens with
        | nil => rfl
        | cons token tokens ih => exact ih
      rw [hnone] at h
      cases h
    | some middle =>
      rw [hstep] at h
      exact List.Subset.trans (references_subset_fold tokens h) (references_subset_step hstep)

theorem references_subset_lookup {value node : Json} {pointer : String}
    (h : Reference.lookup? value pointer = some node) : references node ⊆ references value := by
  unfold Reference.lookup? at h
  split at h
  · cases h
    exact List.Subset.refl _
  · exact references_subset_fold _ h
  · cases h

/-- Where no reference is spelled, nothing leads anywhere. -/
theorem not_leads {documents : Reference.Documents} (h : ∀ document ∈ documents, references document.value = [])
    (a b : DefinitionKey) : ¬ Leads documents a b := by
  intro hleads
  obtain ⟨_, ⟨node, hnode, reference, hmem, _⟩, _⟩ := Relation.TransGen.head'_iff.1 hleads
  obtain ⟨document, hdocument, hlookup⟩ := Option.bind_eq_some_iff.1 hnode
  have hnone := references_subset_lookup hlookup hmem
  rw [h document (List.mem_of_find?_eq_some hdocument)] at hnone
  exact absurd hnone List.not_mem_nil

/-- Documents whose references all lead to something other than a reference. -/
theorem NoAliasCycle.of_targets {documents : Reference.Documents} (hd : Distinct documents)
    (h : ∀ document ∈ documents, ∀ reference ∈ references document.value, ∀ target,
      targetIn? documents document.key reference = some target → target.node.get? "$ref" = none) :
    NoAliasCycle documents := by
  rintro a b ⟨node, hnode, _, reference, _, hreference, _, _⟩ _ hleads
  obtain ⟨c, _, m, hm, r, hr, target, htarget, rfl⟩ := Relation.TransGen.tail'_iff.1 hleads
  obtain ⟨document, hdocument, hlookup⟩ := Option.bind_eq_some_iff.1 hm
  obtain ⟨hmem, hkey⟩ := mem_of_get? hdocument
  have hnone := h document hmem r (references_subset_lookup hlookup hr) target (hkey ▸ htarget)
  rw [nodeAt?_target hd htarget] at hnode
  cases hnode
  rw [hreference] at hnone
  cases hnone

end SchemaTypes.Building
