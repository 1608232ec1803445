import Mathlib.Data.List.Dedup
import Mathlib.Data.List.Perm.Subperm
import SchemaTypes.Proofs.Reference.Levels
/-!
# What references can name

The targets of the references written in stored documents, each once.  A reference is looked up from the document that
it is written in.  Only what the root of a document refers to as a whole is read from the root's own document, wherever
it is written (`rootOf`), so that is a second place to look it up from.

There are no more targets than documents times references, and no target is deeper than the deepest document.  That is
what `recursionBound` counts (`targets_le_recursionBound`).
-/
namespace SchemaTypes.Building

/-- What the references written in a document name, from there and from the document that is being processed. -/
def targetsOf (documents : Reference.Documents) (root : String) (document : Reference.Document) :
    List DefinitionKey :=
  (references document.value).flatMap fun reference =>
    [document.key, root].filterMap fun place => (targetIn? documents place reference).map (·.key)

/-- What the references written in stored documents can name, each once. -/
def targets (documents : Reference.Documents) (root : String) : List DefinitionKey :=
  (documents.flatMap (targetsOf documents root)).dedup

/-- What a node refers to, from its document, is listed. -/
def Covered (documents : Reference.Documents) (root document : String) (node : Json) : Prop :=
  ∀ reference ∈ references node, ∀ target, targetIn? documents document reference = some target →
    target.key ∈ targets documents root

variable {documents : Reference.Documents} {root place : String} {node inner : Json} {target : Target}

theorem Covered.subset (h : Covered documents root place node) (hsubset : references inner ⊆ references node) :
    Covered documents root place inner := fun reference hmem => h reference (hsubset hmem)

theorem covered_of_written {stored : Reference.Document} (hstored : stored ∈ documents)
    (hwritten : references node ⊆ references stored.value) (hplace : place ∈ [stored.key, root]) :
    Covered documents root place node := by
  intro reference hmem target htarget
  refine List.mem_dedup.2 (List.mem_flatMap.2 ⟨stored, hstored, List.mem_flatMap.2 ⟨reference, hwritten hmem, ?_⟩⟩)
  exact List.mem_filterMap.2 ⟨place, hplace, by rw [htarget]; rfl⟩

/-- The node of a target is covered in the document that holds it. -/
theorem covered_target {reference : String} (h : targetIn? documents place reference = some target) :
    Covered documents root target.key.document target.node := by
  obtain ⟨stored, hstored, hkey, hnode⟩ := targetIn?_spec h
  exact covered_of_written hstored (references_subset_lookup hnode) (hkey ▸ List.mem_cons_self)

/-! ## Counting -/

mutual
theorem length_references : ∀ value : Json, (references value).length ≤ referenceCount value
  | .null | .bool _ | .number _ | .string _ => Nat.le_refl 0
  | .array items => length_referencesOfItems items
  | .object members => length_referencesOfMembers members
theorem length_referencesOfItems : ∀ items : List Json,
    (referencesOfItems items).length ≤ referenceCountOfItems items
  | [] => Nat.le_refl 0
  | item :: rest => by
    rw [referencesOfItems, referenceCountOfItems, List.length_append]
    exact Nat.add_le_add (length_references item) (length_referencesOfItems rest)
theorem length_referencesOfMembers : ∀ members : List (String × Json),
    (referencesOfMembers members).length ≤ referenceCountOfMembers members
  | [] => Nat.le_refl 0
  | (name, value) :: rest => by
    have hown : (ownReference (name, value)).length ≤ if name = "$ref" then 1 else 0 := by
      unfold ownReference
      split
      · rename_i heq
        rw [if_pos (Prod.mk.inj heq).1]
        exact Nat.le_refl 1
      · exact Nat.zero_le _
    rw [referencesOfMembers, referenceCountOfMembers, List.length_append, List.length_append, Nat.add_assoc]
    exact Nat.add_le_add hown (Nat.add_le_add (length_references value) (length_referencesOfMembers rest))
end

theorem length_flatMap_le {α β : Type} {f : α → List β} {n : Nat} : ∀ {l : List α}, (∀ a ∈ l, (f a).length ≤ n) →
    (l.flatMap f).length ≤ l.length * n
  | [], _ => Nat.zero_le _
  | a :: l, h => by
    rw [List.flatMap_cons, List.length_append, List.length_cons, Nat.succ_mul, Nat.add_comm]
    exact Nat.add_le_add (length_flatMap_le fun b hb => h b (List.mem_cons_of_mem _ hb)) (h a List.mem_cons_self)

/-- All references that are written in the documents. -/
def written (documents : Reference.Documents) : List String := documents.flatMap (references ·.value)

theorem length_written (documents : Reference.Documents) :
    (written documents).length ≤ (documents.map fun document => referenceCount document.value).foldl (· + ·) 0 := by
  rw [← List.sum_eq_foldl]
  unfold written
  induction documents with
  | nil => exact Nat.le_refl 0
  | cons document rest ih =>
    rw [List.flatMap_cons, List.length_append, List.map_cons, List.sum_cons]
    exact Nat.add_le_add (length_references document.value) ih

/-- Each target is named by a reference from some document. -/
theorem length_targets (hroot : ∃ document ∈ documents, document.key = root) :
    (targets documents root).length ≤ documents.length * (written documents).length := by
  obtain ⟨origin, horigin, rfl⟩ := hroot
  have hsubset : targets documents origin.key ⊆ documents.flatMap fun document =>
      (written documents).filterMap fun reference => (targetIn? documents document.key reference).map (·.key) := by
    intro key hkey
    obtain ⟨stored, hstored, hkey⟩ := List.mem_flatMap.1 (List.mem_dedup.1 hkey)
    obtain ⟨reference, hreference, hkey⟩ := List.mem_flatMap.1 hkey
    obtain ⟨place, hplace, hkey⟩ := List.mem_filterMap.1 hkey
    have hfrom : ∃ document ∈ documents, document.key = place := by
      simp only [List.mem_cons, List.not_mem_nil, or_false] at hplace
      rcases hplace with rfl | rfl
      · exact ⟨stored, hstored, rfl⟩
      · exact ⟨origin, horigin, rfl⟩
    obtain ⟨document, hdocument, rfl⟩ := hfrom
    refine List.mem_flatMap.2 ⟨document, hdocument, List.mem_filterMap.2 ⟨reference, ?_, hkey⟩⟩
    exact List.mem_flatMap.2 ⟨stored, hstored, hreference⟩
  refine Nat.le_trans (List.subperm_of_subset (List.nodup_dedup _) hsubset).length_le ?_
  exact length_flatMap_le fun document _ => List.length_filterMap_le _ _

/-! ## Depth -/

/-- The depth of the deepest document. -/
def depthOf (documents : Reference.Documents) : Nat :=
  (documents.map fun document => document.value.depth).foldl max 0

theorem le_foldl_max : ∀ {depths : List Nat} {least depth : Nat}, depth = least ∨ depth ∈ depths →
    depth ≤ depths.foldl max least
  | [], _, _, h => Nat.le_of_eq (h.resolve_right List.not_mem_nil)
  | first :: rest, least, depth, h => by
    rw [List.foldl_cons]
    rcases h with rfl | h
    · exact Nat.le_trans (Nat.le_max_left _ _) (le_foldl_max (Or.inl rfl))
    · rcases List.mem_cons.1 h with rfl | h
      · exact Nat.le_trans (Nat.le_max_right _ _) (le_foldl_max (Or.inl rfl))
      · exact le_foldl_max (Or.inr h)

theorem depth_le_depthOf {document : Reference.Document} (h : document ∈ documents) :
    document.value.depth ≤ depthOf documents := le_foldl_max (Or.inr (List.mem_map_of_mem h))

theorem depth_step {value next : Json} {token : List Char} (h : Reference.step? value token = some next) :
    next.depth ≤ value.depth := by
  cases value with
  | object members =>
    have hget : List.lookup (String.ofList token) members = some next := h
    exact Nat.le_succ_of_le (depth_le_members (mem_of_lookup hget))
  | array items =>
    obtain ⟨index, _, hitem⟩ := Option.bind_eq_some_iff.1 h
    exact Nat.le_succ_of_le (depth_le_items (List.mem_of_getElem? hitem))
  | _ => cases h

theorem depth_steps : ∀ (tokens : List (List Char)) {found : Option Json} {depth : Nat},
    (∀ value ∈ found, value.depth ≤ depth) →
      ∀ value ∈ tokens.foldl (fun value? token => value?.bind (Reference.step? · token)) found, value.depth ≤ depth
  | [], _, _, h => h
  | token :: tokens, found, depth, h => by
    refine depth_steps tokens fun next hnext => ?_
    obtain ⟨value, hvalue, hstep⟩ := Option.bind_eq_some_iff.1 hnext
    exact Nat.le_trans (depth_step hstep) (h value hvalue)

theorem depth_lookup {value : Json} {pointer : String} (h : Reference.lookup? value pointer = some node) :
    node.depth ≤ value.depth := by
  unfold Reference.lookup? at h
  split at h
  · cases h
    exact Nat.le_refl _
  · exact depth_steps _ (fun found hfound => by cases hfound; exact Nat.le_refl _) node h
  · cases h

/-- No target has more levels than the deepest document allows. -/
theorem levels_target {reference : String} (h : targetIn? documents place reference = some target) :
    target.node.levels ≤ depthOf documents + 3 := by
  obtain ⟨stored, hstored, _, hnode⟩ := targetIn?_spec h
  have hdepth := Nat.le_trans (depth_lookup hnode) (depth_le_depthOf hstored)
  exact Nat.le_trans (levels_le_depth _) (Nat.add_le_add_right hdepth 3)

/-- **The recursion bound allows for every chain of targets and for the levels between them**, and for as many levels
around. -/
theorem room_le_recursionBound (hroot : ∃ document ∈ documents, document.key = root) :
    ((targets documents root).length + 2) * (depthOf documents + 5) ≤ recursionBound documents := by
  have htargets := Nat.le_trans (length_targets hroot) (Nat.mul_le_mul_left _ (length_written documents))
  exact Nat.mul_le_mul_right _ (Nat.add_le_add_right htargets 2)

theorem targets_le_recursionBound (hroot : ∃ document ∈ documents, document.key = root) :
    ((targets documents root).length + 1) * (depthOf documents + 3) ≤ recursionBound documents :=
  Nat.le_trans (Nat.mul_le_mul (Nat.le_succ _) (Nat.le_add_right _ 2)) (room_le_recursionBound hroot)

end SchemaTypes.Building
