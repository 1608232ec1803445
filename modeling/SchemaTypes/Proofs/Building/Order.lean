import SchemaTypes.Evaluation.Verdict
import SchemaTypes.Proofs.Building.Wrappers
/-!
# The order of processing

Once all documents are registered, processing one stores it again, behind the others.  So whatever is processed, and
whatever comes of it, the store is a permutation of what was registered, and references resolve as they did at first
(`resolves_in_any_order`), unless two documents go by one file name or one `$id` and the first of them is taken.  One
that cannot be resolved is broken in the document it is written in: building a definition switches to the document that
holds it, so wherever a document fails for a reference, those of its root lead to a broken one
(`Orderly.process_broken`).

A document that refers to nothing is built in tandem after any calls, whatever they have left (`processes_alike`).  So
if such documents can all be processed in one order they can in any, and each root judges alike unless a type has been
redirected.

Otherwise what is built does depend on the order.  A root that is processed loses keywords of a value as a whole, which
it has when another document's reference builds it first (`not_forall_valid_in_any_order`).
-/
namespace SchemaTypes

namespace Building

/-- No two documents can be meant by one name. -/
structure Unambiguous (documents : Reference.Documents) : Prop where
  keys : Distinct documents
  fileNames : ∀ a ∈ documents, ∀ b ∈ documents,
    Reference.Documents.fileName a.key = Reference.Documents.fileName b.key → a = b
  ids : ∀ reference, ∀ a ∈ documents, ∀ b ∈ documents, Reference.Documents.hasId a reference = true →
    Reference.Documents.hasId b reference = true → a = b

/-- What at most one element satisfies is found in any order. -/
theorem find?_perm {α : Type} {p : α → Bool} {l l' : List α} (hperm : l.Perm l')
    (hunique : ∀ a ∈ l, ∀ b ∈ l, p a = true → p b = true → a = b) : l.find? p = l'.find? p := by
  cases hfound : l.find? p with
  | none =>
    rw [List.find?_eq_none] at hfound
    exact (List.find?_eq_none.2 fun x hx => hfound x (hperm.mem_iff.2 hx)).symm
  | some a =>
    have ha := List.find?_some hfound
    have hmem := List.mem_of_find?_eq_some hfound
    cases hother : l'.find? p with
    | none => exact absurd ha (List.find?_eq_none.1 hother a (hperm.mem_iff.1 hmem))
    | some b =>
      rw [hunique a hmem b (hperm.mem_iff.2 (List.mem_of_find?_eq_some hother)) ha (List.find?_some hother)]

section

variable {documents others : Reference.Documents} {document : Reference.Document}

theorem get?_perm (hperm : documents.Perm others) (hkeys : Distinct documents) (key : String) :
    documents.get? key = others.get? key := by
  refine find?_perm hperm fun a ha b hb hakey hbkey => ?_
  have hget := get?_of_mem hkeys ha
  rw [of_decide_eq_true hakey, ← of_decide_eq_true hbkey, get?_of_mem hkeys hb] at hget
  exact (Option.some.inj hget).symm

/-- Unambiguous names mean the same documents in any order. -/
theorem locate?_perm (hperm : documents.Perm others) (h : Unambiguous documents) (reference : String) :
    documents.locate? reference = others.locate? reference := by
  unfold Reference.Documents.locate?
  have hname : documents.find? (fun document =>
      Reference.Documents.fileName document.key = Reference.Documents.fileName reference) =
      others.find? fun document =>
        Reference.Documents.fileName document.key = Reference.Documents.fileName reference := by
    refine find?_perm hperm fun a ha b hb haname hbname => h.fileNames a ha b hb ?_
    exact (of_decide_eq_true haname).trans (of_decide_eq_true hbname).symm
  rw [get?_perm hperm h.keys, hname, find?_perm hperm (h.ids reference)]

theorem targetIn?_perm (hperm : documents.Perm others) (h : Unambiguous documents) (document reference : String) :
    targetIn? documents document reference = targetIn? others document reference := by
  unfold targetIn? target?
  simp only
  rw [get?_perm hperm h.keys, locate?_perm hperm h]

theorem rootNode_perm (hperm : documents.Perm others) (h : Unambiguous documents) (source : Source) (value : Json) :
    rootNode documents source value = rootNode others source value := by
  unfold rootNode
  split
  · rw [targetIn?_perm hperm h]
  · rfl

/-- The same references are broken in any order. -/
theorem Broken.perm {start reference : String} {spelled : List String} (hperm : documents.Perm others)
    (h : Unambiguous documents) (hbroken : Broken others start spelled reference) :
    Broken documents start spelled reference := by
  induction hbroken with
  | here hmem hnone => exact .here hmem ((targetIn?_perm hperm h _ _).trans hnone)
  | behind hmem htarget _ ih => exact .behind hmem ((targetIn?_perm hperm h _ _).trans htarget) ih

/-- A document that is stored again only moves. -/
theorem insert_perm (hkeys : Distinct documents) (hmem : document ∈ documents) :
    (documents.insert document).Perm documents := by
  unfold Reference.Documents.insert
  induction documents with
  | nil => cases hmem
  | cons first rest ih =>
    unfold Distinct at hkeys
    rw [List.map_cons, List.nodup_cons] at hkeys
    rcases List.mem_cons.1 hmem with rfl | hmem
    · have hrest : rest.filter (·.key ≠ document.key) = rest := by
        refine List.filter_eq_self.2 fun other hother => decide_eq_true fun heq => ?_
        exact hkeys.1 (heq ▸ List.mem_map_of_mem hother)
      rw [List.filter_cons_of_neg (by simp), hrest]
      exact List.perm_append_singleton _ _
    · have hne : first.key ≠ document.key := fun heq => hkeys.1 (heq ▸ List.mem_map_of_mem hmem)
      rw [List.filter_cons_of_pos (by simpa using hne), List.cons_append]
      exact (ih hkeys.2 hmem).cons first

/-- A document under a new key goes behind the others. -/
theorem insert_of_new (h : Distinct (documents ++ [document])) :
    documents.insert document = documents ++ [document] := by
  unfold Reference.Documents.insert
  rw [List.filter_eq_self.2]
  intro other hother
  unfold Distinct at h
  rw [List.map_append, List.nodup_append] at h
  exact decide_eq_true (h.2.2 _ (List.mem_map_of_mem hother) _ (List.mem_map_of_mem List.mem_cons_self))

end

/-- A document as it is stored. -/
def filed (document : Source × Json) : Reference.Document := ⟨document.1.key, document.1.namespaceName, document.2⟩

/-! ## What lies in another document -/

section

open Reference (Document Documents)

variable {documents : Documents} {last other found : Document} {p : Document → Bool} {reference place : String}
  {s : Session} {source : Source} {value : Json} {target : Target}

theorem find?_foreign (hkey : found.key ≠ last.key) (h : (documents ++ [last]).find? p = some found) :
    (documents ++ [other]).find? p = some found := by
  rw [List.find?_append] at h ⊢
  cases hfirst : documents.find? p with
  | some first =>
    rw [hfirst] at h
    exact h
  | none =>
    rw [hfirst] at h
    exact absurd (congrArg Document.key (List.mem_singleton.1 (List.mem_of_find?_eq_some h))) hkey

theorem find?_none_foreign (hp : p last = p other) (h : (documents ++ [last]).find? p = none) :
    (documents ++ [other]).find? p = none := by
  rw [List.find?_eq_none] at h ⊢
  intro document hmem
  rcases List.mem_append.1 hmem with hmem | hmem
  · exact h document (List.mem_append_left _ hmem)
  · rw [List.mem_singleton.1 hmem, ← hp]
    exact h last (List.mem_append_right _ List.mem_cons_self)

/-- A name that means one of the first documents does so whatever the last one is. -/
theorem locate?_foreign (h : Documents.locate? (documents ++ [last]) reference = some found)
    (hsame : last.key = other.key) (hkey : found.key ≠ last.key) :
    Documents.locate? (documents ++ [other]) reference = some found := by
  unfold Documents.locate? Documents.get? at h ⊢
  simp only [Option.orElse_eq_orElse, Option.orElse_eq_or] at h ⊢
  rcases Option.or_eq_some_iff.1 h with h | ⟨hnone, h⟩
  · rw [find?_foreign hkey h, Option.some_or]
  · rw [find?_none_foreign (by rw [hsame]) hnone, Option.none_or]
    rcases Option.or_eq_some_iff.1 h with h | ⟨hnone, h⟩
    · rw [find?_foreign hkey h, Option.some_or]
    · rw [find?_none_foreign (by rw [hsame]) hnone, find?_foreign hkey h, Option.none_or]

/-- So does a reference into another document. -/
theorem targetIn?_foreign (h : targetIn? (s.register source value).documents place reference = some target)
    (hforeign : target.key.document ≠ source.key) (other : Json) :
    targetIn? (s.register source other).documents place reference = some target := by
  unfold targetIn? target? at h ⊢
  simp only at h ⊢
  split at h
  · rename_i hempty
    obtain ⟨stored, hstored, h⟩ := Option.bind_eq_some_iff.1 h
    obtain ⟨node, hnode, h⟩ := Option.bind_eq_some_iff.1 h
    cases h
    rw [if_pos hempty]
    exact Option.bind_eq_some_iff.2 ⟨stored, find?_foreign hforeign hstored,
      Option.bind_eq_some_iff.2 ⟨node, hnode, rfl⟩⟩
  · rename_i hpart
    obtain ⟨stored, hstored, h⟩ := Option.bind_eq_some_iff.1 h
    obtain ⟨node, hnode, h⟩ := Option.bind_eq_some_iff.1 h
    cases h
    rw [if_neg hpart]
    exact Option.bind_eq_some_iff.2 ⟨stored, locate?_foreign hstored rfl hforeign,
      Option.bind_eq_some_iff.2 ⟨node, hnode, rfl⟩⟩

end

/-! ## Documents that refer to nothing -/

open Build Naming

/-- An object that refers to nothing, as a class with an identifier. -/
structure Standalone (document : Source × Json) : Prop where
  identified : HasIdentifier document.1.className
  isObject : Keyword.isObject document.2 = true
  reference : document.2.get? "$ref" = none
  references : references document.2 = []

variable {config : Config} {source : Source} {node : Json} {s s' : Session}

/-- The runs that make one root from two sessions. -/
def apart (config : Config) (hcarries : config.naming.Carries) (s s' : Session) : Tandem :=
  .afresh config hcarries (s.graph.properties.size, s'.graph.properties.size)
    (s.graph.types.size, s'.graph.types.size)

/-- The roots are embodied in tandem, from where both have been begun. -/
theorem goesAt_roots (hcarries : config.naming.Carries) (h : Standalone (source, node)) (s s' : Session) :
    (apart config hcarries s s').GoesAt True (begun (s.register source node) source)
      (begun (s'.register source node) source)
      (embody (property (recursionBound (s.register source node).documents)) (rootScope source (rootClass s source))
        (rootClass s source) node id (rootId s))
      (embody (property (recursionBound (s'.register source node).documents)) (rootScope source (rootClass s' source))
        (rootClass s' source) node id (rootId s'))
      fun C a b => C → (apart config hcarries s s').Types a.1 b.1 ∧ (apart config hcarries s s').Ids a.2 b.2 := by
  have hshares := (Tandem.goes_property (t := apart config hcarries s s') _ _).shares
    (Nat.le_succ_of_le (levels_le_recursionBound s source node))
    (Nat.le_succ_of_le (levels_le_recursionBound s' source node)) (Ground.covers_of_nil h.references)
    (isObject_of_isObject h.isObject) (mild_of_isObject h.isObject)
  have hclass : ∀ s : Session, HasIdentifier (rootClass s source) := fun s => h.identified.freeName s.graph _
  have hcoupled : (apart config hcarries s s').Coupled (begun (s.register source node) source).graph
      (begun (s'.register source node) source).graph :=
    Tandem.Coupled.reserve (Tandem.coupled_start rfl rfl (Ground.empty_enduresIn _) (Ground.empty_enduresIn _))
      _ _ _ _ _ _
  refine Tandem.goesAt_embody hshares ⟨nofun, hclass s, hclass s'⟩ (Tandem.named_of (hclass s) (hclass s'))
    (fun _ _ _ hdrafts => hdrafts) ⟨Ground.empty_servedIn _ _, Ground.empty_servedIn _ _⟩ (fun _ => hcoupled)
    (fun _ => ⟨0, rfl, rfl⟩) ?_
  exact Nat.lt_of_lt_of_eq (Nat.lt_succ_self _) (Array.size_push _).symm

end Building

namespace Session

open Building (filed)

def registering (documents : List (Source × Json)) : List Call :=
  documents.map fun document => .register document.1 document.2

def processing (documents : List (Source × Json)) : List Call :=
  documents.map fun document => .process document.1 document.2

/-- The session after all documents have been registered, and then some processed in an order. -/
def afterOrder (config : Config) (documents order : List (Source × Json)) : Session :=
  performAll config (registering documents ++ processing order)

variable {config : Config} {documents order order' : List (Source × Json)} {s s' : Session}

/-! ## What cannot be resolved -/

/-- **A document that fails for a reference** leads to it: from the references of its root, others lead to a broken
one, each looked up in the document that holds the node it is written in. -/
theorem Orderly.process_broken {source : Source} {value : Json} {reference : String} (h : s.Orderly config)
    (hrun : s.process config source value = (.error (.refused (.unresolvedReference reference)), s')) :
    Building.Broken (s.register source value).documents source.key
      (Building.references (Building.rootNode (s.register source value).documents source value)) reference :=
  ((Building.Scene.document_outcomes (h.stands source value)).2 _ _ hrun).2

/-- The reference a run halted for, if it did. -/
def unresolved? : Except Halt TypeId × Session → Option String
  | (.error (.refused (.unresolvedReference reference)), _) => some reference
  | _ => none

theorem eq_error_of_unresolved? {reference : String} : ∀ {run : Except Halt TypeId × Session},
    unresolved? run = some reference → run = (.error (.refused (.unresolvedReference reference)), run.2)
  | (.error (.refused (.unresolvedReference _)), _), h => by
    cases h
    rfl

/-! ## What is stored after an order -/

theorem documents_registering (h : Building.Distinct (s.documents ++ documents.map filed)) :
    ((registering documents).foldl (perform config) s).documents = s.documents ++ documents.map filed := by
  induction documents generalizing s with
  | nil => exact (List.append_nil _).symm
  | cons document rest ih =>
    rw [List.map_cons, List.append_cons] at h ⊢
    have hstored : (s.register document.1 document.2).documents = s.documents ++ [filed document] := by
      refine Building.insert_of_new (List.Nodup.sublist ?_ h)
      exact List.Sublist.map _ (List.sublist_append_left _ _)
    rw [← hstored] at h ⊢
    exact ih h

/-- However a document ends, it is stored, and nothing else is. -/
theorem Orderly.documents_process (h : s.Orderly config) (source : Source) (value : Json) :
    (s.process config source value).2.documents = s.documents.insert (filed (source, value)) :=
  (h.writes_process source value).documents

/-- **Processing what is stored only moves documents.** -/
theorem Orderly.documents_processing (h : s.Orderly config) (hkeys : Building.Distinct s.documents)
    (hstored : ∀ document ∈ order, filed document ∈ s.documents) :
    ((processing order).foldl (Session.perform config) s).documents.Perm s.documents := by
  -- Each document processed leaves a permutation, in which the rest is stored as before.
  induction order generalizing s with
  | nil => exact .refl _
  | cons document rest ih =>
    obtain ⟨source, value⟩ := document
    have hprocessed := h.documents_process source value
    have hperm : (s.process config source value).2.documents.Perm s.documents := by
      rw [hprocessed]
      exact Building.insert_perm hkeys (hstored _ List.mem_cons_self)
    refine (ih (h.perform (.process source value)) ?_ fun other hother => ?_).trans hperm
    · exact hprocessed ▸ hkeys.insert _
    · exact hperm.mem_iff.2 (hstored other (List.mem_cons_of_mem _ hother))

theorem documents_afterOrder (config : Config) (hkeys : Building.Distinct (documents.map filed))
    (horder : order ⊆ documents) :
    (afterOrder config documents order).documents.Perm (documents.map filed) := by
  have hregistered : (performAll config (registering documents)).documents = documents.map filed :=
    documents_registering hkeys
  have hstored : ∀ document ∈ order, filed document ∈ (performAll config (registering documents)).documents :=
    fun document hdocument => hregistered ▸ List.mem_map_of_mem (horder hdocument)
  have hprocessed := (orderly_performAll config (registering documents)).documents_processing (hregistered ▸ hkeys)
    hstored
  unfold afterOrder
  rw [performAll_append]
  exact hregistered ▸ hprocessed

/-! ## Documents that refer to nothing -/

/-- No type that has come since is redirected. -/
def NoneRedirected (s s' : Session) : Prop :=
  ∀ id : TypeId, s.graph.types.size ≤ id.index → (s'.graph.entry id).redirect = none

/-- From an earlier session to one that a later one only adds to. -/
theorem NoneRedirected.between {r m m' : Session} (h : r.NoneRedirected s) (hearlier : r.graph.Grows m.graph)
    (hlater : m'.graph.EnduresIn s.graph) : m.NoneRedirected m' := by
  intro id hid
  by_cases hthere : m'.graph.HasType id
  · rw [← hlater.entry id hthere]
    exact h id (Nat.le_trans hearlier.types hid)
  · rw [entry_of_le (Nat.le_of_not_lt hthere)]
    rfl

variable {calls : List Call} {source : Source} {value : Json} {root root' : TypeId} {m m' n n' : Session}
  {definition definition' : PropertyId} {roots roots' : List (String × TypeId)} {C : Prop}

/-- Where the two runs have stayed in step to the end, the roots judge alike. -/
theorem judges_alike (hcarries : config.naming.Carries)
    (hbetween : (Building.apart config hcarries s s').Between True (Building.begun (s.register source value) source)
      (Building.begun (s'.register source value) source) C n n')
    (htypes : C → (Building.apart config hcarries s s').Types root root')
    (hcomplete : (Building.complete ⟨source.key, ""⟩ definition).Runs config n ⟨⟩ m)
    (hcomplete' : (Building.complete ⟨source.key, ""⟩ definition').Runs config n' ⟨⟩ m') (hclosed : m.Closed)
    (hthere : m.graph.HasType root) (hnone : s.NoneRedirected m) (hnone' : s'.NoneRedirected m') (mode : Mode)
    (input : Json) :
    Option.Rel Evaluation.Result.Like (m.graph.evaluate mode root input) (m'.graph.evaluate mode root' input) := by
  obtain rfl := (Building.runs_complete_alone (Building.pending_of_calm hbetween.first)).1 hcomplete
  obtain rfl := (Building.runs_complete_alone (Building.pending_of_calm hbetween.second)).1 hcomplete'
  have hC := hbetween.kept trivial ⟨hnone, hnone'⟩
  have hcoupled := hbetween.coupled hC
  exact (hcoupled.isLikeness hcoupled.keeps hclosed.properties hclosed.types).evaluate mode
    ⟨Or.inl (htypes hC), hthere⟩ input

/-- **What refers to nothing is built alike after any calls.**  It can be processed or cannot whatever has been called
before, and unless a type is redirected the root evaluates every value to the same model and validity. -/
theorem processes_alike (hcarries : config.naming.Carries) (h : Building.Standalone (source, value))
    (calls calls' : List Call) :
    ((∃ root m, (performAll config calls).process config source value = (.ok root, m)) →
      ∃ root m, (performAll config calls').process config source value = (.ok root, m)) ∧
    ∀ root m root' m', (performAll config calls).process config source value = (.ok root, m) →
      (performAll config calls').process config source value = (.ok root', m') →
      (performAll config calls).NoneRedirected m → (performAll config calls').NoneRedirected m' →
      ∀ mode input, Option.Rel Evaluation.Result.Like (m.graph.evaluate mode root input)
        (m'.graph.evaluate mode root' input) := by
  have horderly := orderly_performAll config calls
  generalize performAll config calls = s at horderly
  generalize performAll config calls' = s'
  rcases (Building.goesAt_roots hcarries h s s').cases with
    ⟨made, made', n, n', C, hrun, hrun', hbetween, hids⟩ | ⟨hnot, _⟩
  · have hcompleted : (Building.complete ⟨source.key, ""⟩ made'.2).Runs config n' ⟨⟩ _ :=
      (Building.runs_complete_alone (Building.pending_of_calm hbetween.second)).2 rfl
    refine ⟨fun _ => ⟨made'.1, _, (Building.runs_document_root h.isObject h.reference).2
      ⟨made'.2, n', hrun', hcompleted⟩⟩, fun root m root' m' hdone hdone' hnone hnone' => ?_⟩
    obtain ⟨definition, k, hmade, hcomplete⟩ := (Building.runs_document_root h.isObject h.reference).1 hdone
    obtain ⟨definition', k', hmade', hcomplete'⟩ := (Building.runs_document_root h.isObject h.reference).1 hdone'
    obtain ⟨rfl, rfl⟩ := hmade.unique hrun
    obtain ⟨rfl, rfl⟩ := hmade'.unique hrun'
    exact judges_alike hcarries hbetween (fun hC => (hids hC).1) hcomplete hcomplete' (horderly.of_process hdone).closed
      (horderly.asFinished_process hdone).2 hnone hnone'
  · have hfails : ∀ root m, s.process config source value ≠ (.ok root, m) := by
      intro root m hdone
      obtain ⟨definition, k, hmade, _⟩ := (Building.runs_document_root h.isObject h.reference).1 hdone
      exact hnot _ _ hmade
    exact ⟨fun ⟨root, m, hdone⟩ => absurd hdone (hfails root m), fun root m _ _ hdone => absurd hdone (hfails root m)⟩

/-- All documents processed with success, and their roots. -/
inductive ProcessesAll (config : Config) : Session → List (Source × Json) → List (String × TypeId) → Session → Prop
  | nil {s : Session} : ProcessesAll config s [] [] s
  | cons {s m s' : Session} {source : Source} {value : Json} {root : TypeId} {rest : List (Source × Json)}
    {roots : List (String × TypeId)} : s.process config source value = (.ok root, m) →
    ProcessesAll config m rest roots s' →
    ProcessesAll config s ((source, value) :: rest) ((source.key, root) :: roots) s'

theorem ProcessesAll.performs (h : ProcessesAll config s order roots s') :
    (processing order).foldl (perform config) s = s' := by
  induction h with
  | nil => rfl
  | cons hprocess _ ih =>
    rw [← ih]
    exact congrArg (List.foldl _ · _) (congrArg Prod.snd hprocess)

/-- Between the two sessions the document is processed with success, after some of the documents and before others. -/
structure MadeBetween (config : Config) (s s' : Session) (document : Source × Json) (root : TypeId)
    (before : List (Source × Json)) (m : Session) : Prop where
  process : ((processing before).foldl (perform config) s).process config document.1 document.2 = (.ok root, m)
  later : ∃ later, (processing later).foldl (perform config) m = s'

theorem MadeBetween.earlier (hprocess : s.process config source value = (.ok root, m)) {document : Source × Json}
    {before : List (Source × Json)} (h : MadeBetween config m s' document root' before n) :
    MadeBetween config s s' document root' ((source, value) :: before) n := by
  refine ⟨?_, h.later⟩
  rw [← h.process]
  exact congrArg (fun t => ((processing before).foldl (perform config) t).process config document.1 document.2)
    (congrArg Prod.snd hprocess)

/-- Every root is that of one of the documents. -/
theorem ProcessesAll.made (h : ProcessesAll config s order roots s') {key : String} (hroot : (key, root) ∈ roots) :
    ∃ document ∈ order, document.1.key = key ∧ ∃ before m, MadeBetween config s s' document root before m := by
  induction h with
  | nil => cases hroot
  | cons hprocess hrest ih =>
    rcases List.mem_cons.1 hroot with heq | hroot
    · obtain ⟨rfl, rfl⟩ := Prod.mk.inj heq
      exact ⟨_, List.mem_cons_self, rfl, [], _, hprocess, _, hrest.performs⟩
    · obtain ⟨document, hmem, hkey, before, m, hmade⟩ := ih hroot
      exact ⟨document, List.mem_cons_of_mem _ hmem, hkey, _, m, hmade.earlier hprocess⟩

/-- Every document has been processed. -/
theorem ProcessesAll.processed (h : ProcessesAll config s order roots s') {document : Source × Json}
    (hmem : document ∈ order) : ∃ root before m, MadeBetween config s s' document root before m := by
  induction h with
  | nil => cases hmem
  | cons hprocess hrest ih =>
    rcases List.mem_cons.1 hmem with rfl | hmem
    · exact ⟨_, [], _, hprocess, _, hrest.performs⟩
    · obtain ⟨root, before, m, hmade⟩ := ih hmem
      exact ⟨root, _, m, hmade.earlier hprocess⟩

/-- What can be processed after any calls can be processed in any order. -/
theorem exists_processesAll {order : List (Source × Json)} (h : ∀ document ∈ order, ∀ calls, ∃ root m,
    (performAll config calls).process config document.1 document.2 = (.ok root, m)) (calls : List Call) :
    ∃ roots s, ProcessesAll config (performAll config calls) order roots s := by
  induction order generalizing calls with
  | nil => exact ⟨[], _, .nil⟩
  | cons document rest ih =>
    obtain ⟨root, m, hprocess⟩ := h document List.mem_cons_self calls
    obtain ⟨roots, s, hrest⟩ := ih (fun other hother => h other (List.mem_cons_of_mem _ hother))
      (calls ++ [.process document.1 document.2])
    rw [performAll_process hprocess] at hrest
    exact ⟨_, s, .cons hprocess hrest⟩

/-- Documents with distinct keys are told apart by them. -/
theorem eq_of_key (h : Building.Distinct (documents.map filed)) {document other : Source × Json}
    (hmem : document ∈ documents) (hother : other ∈ documents) (hkey : document.1.key = other.1.key) :
    document = other := by
  unfold Building.Distinct at h
  rw [List.map_map] at h
  exact List.inj_on_of_nodup_map h hmem hother hkey

/-- A root judges in the end as right after it was made. -/
theorem MadeBetween.evaluate {document : Source × Json} {before : List (Source × Json)}
    (h : MadeBetween config (performAll config calls) s document root before m) (mode : Mode) (input : Json) :
    s.graph.evaluate mode root input = m.graph.evaluate mode root input := by
  obtain ⟨later, rfl⟩ := h.later
  have hprocess := h.process
  rw [← performAll_append] at hprocess
  have hroot := ((orderly_performAll config _).asFinished_process hprocess).2
  exact ((agreeOn_process hprocess (processing later)).evaluate_eq mode hroot input).symm

theorem MadeBetween.noneRedirected {document : Source × Json} {before : List (Source × Json)}
    (h : MadeBetween config s s' document root before m) (hnone : s.NoneRedirected s') :
    ((processing before).foldl (perform config) s).NoneRedirected m := by
  obtain ⟨later, rfl⟩ := h.later
  exact hnone.between (enduresIn_performs config _ s).grows (enduresIn_performs config _ m)

/-- Whatever two sessions have made of documents with one key evaluates every value to the same model and validity. -/
def RootsAlike (s s' : Session) (roots roots' : List (String × TypeId)) : Prop :=
  ∀ key root root', (key, root) ∈ roots → (key, root') ∈ roots' → ∀ mode input,
    Option.Rel Evaluation.Result.Like (s.graph.evaluate mode root input) (s'.graph.evaluate mode root' input)

/-- **What refers to nothing can be processed in any order**, if in one, and unless a type is redirected the roots are
alike. -/
theorem alike_in_any_order (hcarries : config.naming.Carries) (hkeys : Building.Distinct (documents.map filed))
    (horder : order ⊆ documents) (halone : ∀ document ∈ order, Building.Standalone document)
    (hsame : order'.Perm order) (calls : List Call) :
    ((∃ roots s, ProcessesAll config (performAll config calls) order roots s) →
      ∃ roots s, ProcessesAll config (performAll config calls) order' roots s) ∧
    ∀ roots s roots' s', ProcessesAll config (performAll config calls) order roots s →
      ProcessesAll config (performAll config calls) order' roots' s' → (performAll config calls).NoneRedirected s →
      (performAll config calls).NoneRedirected s' → RootsAlike s s' roots roots' := by
  refine ⟨fun ⟨roots, s, hall⟩ => exists_processesAll (fun document hmem others => ?_) _, ?_⟩
  · obtain ⟨root, before, m, hmade⟩ := hall.processed (hsame.mem_iff.1 hmem)
    have hprocess := hmade.process
    rw [← performAll_append] at hprocess
    exact (processes_alike hcarries (halone document (hsame.mem_iff.1 hmem)) _ others).1 ⟨root, m, hprocess⟩
  · intro roots s roots' s' hall hall' hnone hnone' key root root' hroot hroot' mode input
    obtain ⟨document, hmem, hkey, before, m, hmade⟩ := hall.made hroot
    obtain ⟨document', hmem', hkey', before', m', hmade'⟩ := hall'.made hroot'
    -- The keys of the documents are distinct, so both roots are of the same one.
    obtain rfl : document = document' := eq_of_key hkeys (horder hmem) (horder (hsame.mem_iff.1 hmem'))
      (hkey.trans hkey'.symm)
    have hjudged := (processes_alike hcarries (halone document hmem) (calls ++ processing before)
      (calls ++ processing before')).2
    rw [performAll_append, performAll_append] at hjudged
    rw [hmade.evaluate, hmade'.evaluate]
    exact hjudged root m root' m' hmade.process hmade'.process (hmade.noneRedirected hnone)
      (hmade'.noneRedirected hnone') mode input

/-- **References resolve in any order of processing.**  Once documents with unambiguous names are registered, a
reference has the same target whichever of them have been processed, in whichever order, with success or not; and one
that a document fails for is broken in the documents as they were registered.

Those that refer to nothing can be processed in any order if in one, and unless a type is redirected the roots of each
evaluate every value to the same model and validity. -/
theorem resolves_in_any_order (config : Config) (hunambiguous : Building.Unambiguous (documents.map filed))
    (horder : order ⊆ documents) :
    (∀ scope reference, Building.target? (afterOrder config documents order).documents scope reference =
      Building.target? (documents.map filed) scope reference) ∧
    (∀ source value reference s', (source, value) ∈ documents →
      (afterOrder config documents order).process config source value =
        (.error (.refused (.unresolvedReference reference)), s') →
      Building.Broken (documents.map filed) source.key
        (Building.references (Building.rootNode (documents.map filed) source value)) reference) ∧
    (config.naming.Carries → (∀ document ∈ order, Building.Standalone document) → ∀ order', order'.Perm order →
      ((∃ roots s, ProcessesAll config (performAll config (registering documents)) order roots s) →
        ∃ roots s, ProcessesAll config (performAll config (registering documents)) order' roots s) ∧
      ∀ roots s roots' s', ProcessesAll config (performAll config (registering documents)) order roots s →
        ProcessesAll config (performAll config (registering documents)) order' roots' s' →
        (performAll config (registering documents)).NoneRedirected s →
        (performAll config (registering documents)).NoneRedirected s' → RootsAlike s s' roots roots') := by
  have hperm := documents_afterOrder config hunambiguous.keys horder
  refine ⟨fun scope reference => ?_, fun source value reference s' hmem hrun => ?_, fun hcarries halone order' hsame =>
    alike_in_any_order hcarries hunambiguous.keys horder halone hsame _⟩
  · rw [Building.target?_eq, Building.target?_eq]
    exact (Building.targetIn?_perm hperm.symm hunambiguous scope.document reference).symm
  · have horderly : (afterOrder config documents order).Orderly config := orderly_performAll config _
    have hbroken := horderly.process_broken hrun
    have hkeys : Building.Distinct (afterOrder config documents order).documents :=
      (hperm.map _).nodup_iff.2 hunambiguous.keys
    have hstored : ((afterOrder config documents order).register source value).documents.Perm (documents.map filed) :=
      (Building.insert_perm hkeys (hperm.mem_iff.2 (List.mem_map_of_mem hmem))).trans hperm
    rw [← Building.rootNode_perm hstored.symm hunambiguous] at hbroken
    exact hbroken.perm hstored.symm hunambiguous

/-! ## Orders of two documents -/

theorem carries_oneName : oneName.naming.Carries := by
  have hname : Naming.HasIdentifier "N" := by decide +kernel
  exact fun _ _ _ _ _ => hname

theorem noneRedirected_of_all (h : s'.graph.types.toList.all (·.redirect.isNone) = true) : s.NoneRedirected s' := by
  intro id _
  by_cases hlt : id.index < s'.graph.types.size
  · have hmem : s'.graph.entry id ∈ s'.graph.types.toList := by
      unfold Graph.entry
      rw [Array.getD_eq_getD_getElem?, Array.getElem?_eq_getElem hlt]
      exact Array.getElem_mem_toList hlt
    exact Option.isNone_iff_eq_none.1 (List.all_eq_true.1 h _ hmem)
  · rw [entry_of_le (Nat.le_of_not_lt hlt)]
    rfl

/-- A document with an object that is one value. -/
def pinned : Source × Json :=
  (⟨"a", "", "A"⟩, .object [("type", .string "object"), ("const", .object [("k", .ofNat 1)])])

/-- A document with an object that has what the reference means under a name. -/
def holder (reference : String) : Source × Json :=
  (⟨"b", "", "B"⟩, .object [("type", .string "object"), ("properties", .object
    [("x", .object [("$ref", .string reference)])])])

theorem unambiguous_pair {a b : Source × Json}
    (hnames : Reference.Documents.fileName a.1.key ≠ Reference.Documents.fileName b.1.key)
    (ha : ∀ reference, Reference.Documents.hasId (filed a) reference = false)
    (hb : ∀ reference, Reference.Documents.hasId (filed b) reference = false) :
    Building.Unambiguous ([a, b].map filed) := by
  have hcases : ∀ d ∈ [a, b].map filed, d = filed a ∨ d = filed b := by
    intro d hd
    simpa using hd
  refine ⟨?_, fun d hd e he heq => ?_, fun reference d hd _ _ hid => ?_⟩
  · change [a.1.key, b.1.key].Nodup
    rw [List.nodup_cons, List.mem_singleton]
    exact ⟨fun heq => hnames (congrArg _ heq), List.nodup_singleton _⟩
  · rcases hcases d hd with rfl | rfl
    · rcases hcases e he with rfl | rfl
      · rfl
      · exact absurd heq hnames
    · rcases hcases e he with rfl | rfl
      · exact absurd heq.symm hnames
      · rfl
  · have hnone : Reference.Documents.hasId d reference = false := by
      rcases hcases d hd with rfl | rfl
      · exact ha reference
      · exact hb reference
    rw [hnone] at hid
    cases hid

theorem unambiguous_pinned_holder (reference : String) :
    Building.Unambiguous ([pinned, holder reference].map filed) := by
  refine unambiguous_pair ?_ (fun _ => rfl) fun _ => rfl
  change Reference.Documents.fileName "a" ≠ Reference.Documents.fileName "b"
  decide

def strayRun : Except Halt TypeId × Session :=
  (afterOrder oneName [pinned, holder "#/gone"] [holder "#/gone", pinned]).process oneName
    (holder "#/gone").1 (holder "#/gone").2

/-- An object with a number. -/
def counted : Json := .object
  [("type", .string "object"), ("properties", .object [("k", .object [("type", .string "integer")])]),
    ("required", .array [.string "k"])]

def counting : Source × Json := (⟨"c", "", "C"⟩, counted)

def countingRegistered : Session := performAll oneName (registering [pinned, counting])

/-- What the two runs come to when the number is first, and when it is second. -/
def countingFirst : Except Halt TypeId × Session := countingRegistered.process oneName counting.1 counting.2

def pinnedNext : Except Halt TypeId × Session := countingFirst.2.process oneName pinned.1 pinned.2

def pinnedBefore : Except Halt TypeId × Session := countingRegistered.process oneName pinned.1 pinned.2

def countingNext : Except Halt TypeId × Session := pinnedBefore.2.process oneName counting.1 counting.2

set_option maxRecDepth 100000 in
/-- The first document is found after both have been processed, the second one in vain; and what that one fails for
is broken.  An object with a number instead of the second is judged alike whether it is processed first or last. -/
theorem resolves_in_any_order_holder :
    Building.target? (afterOrder oneName [pinned, holder "#/gone"] [holder "#/gone", pinned]).documents
      ⟨"b", "", "B"⟩ "a" = some ⟨⟨"a", ""⟩, "", pinned.2, "a"⟩ ∧
    unresolved? strayRun = some "#/gone" ∧
    Building.Broken ([pinned, holder "#/gone"].map filed) "b" ["#/gone"] "#/gone" ∧
    ∀ mode input, Option.Rel Evaluation.Result.Like (pinnedNext.2.graph.evaluate mode ⟨0⟩ input)
      (countingNext.2.graph.evaluate mode ⟨1⟩ input) := by
  have hrun : unresolved? strayRun = some "#/gone" := by decide +kernel
  have hsubset : [holder "#/gone", pinned] ⊆ [pinned, holder "#/gone"] := by simp
  obtain ⟨hresolves, hbroken, _⟩ :=
    resolves_in_any_order oneName (unambiguous_pinned_holder "#/gone") hsubset
  refine ⟨(hresolves ⟨"b", "", "B"⟩ "a").trans rfl, hrun, ?_, ?_⟩
  · exact hbroken (holder "#/gone").1 (holder "#/gone").2 "#/gone" strayRun.2 (by simp) (eq_error_of_unresolved? hrun)
  · have hfacts : countingFirst.1.toOption = some ⟨0⟩ ∧ pinnedNext.1.toOption = some ⟨1⟩ ∧
        pinnedBefore.1.toOption = some ⟨0⟩ ∧ countingNext.1.toOption = some ⟨1⟩ ∧
        pinnedNext.2.graph.types.toList.all (·.redirect.isNone) = true ∧
        countingNext.2.graph.types.toList.all (·.redirect.isNone) = true ∧
        (∀ document ∈ [counting, pinned], Building.references document.2 = []) ∧
        ∀ document ∈ [counting, pinned], Naming.HasIdentifier document.1.className := by
      decide +kernel
    obtain ⟨hfirst, hsecond, hfirst', hsecond', hnone, hnone', hreferences, hidentified⟩ := hfacts
    have hall : ProcessesAll oneName countingRegistered [counting, pinned] [("c", ⟨0⟩), ("a", ⟨1⟩)] pinnedNext.2 :=
      .cons (eq_ok_of_toOption hfirst) (.cons (eq_ok_of_toOption hsecond) .nil)
    have hall' : ProcessesAll oneName countingRegistered [pinned, counting] [("a", ⟨0⟩), ("c", ⟨1⟩)] countingNext.2 :=
      .cons (eq_ok_of_toOption hfirst') (.cons (eq_ok_of_toOption hsecond') .nil)
    have hunambiguous : Building.Unambiguous ([pinned, counting].map filed) := by
      refine unambiguous_pair ?_ (fun _ => rfl) fun _ => rfl
      change Reference.Documents.fileName "a" ≠ Reference.Documents.fileName "c"
      decide
    have halone : ∀ document ∈ [counting, pinned], Building.Standalone document := by
      intro document hmem
      refine ⟨hidentified document hmem, ?_, ?_, hreferences document hmem⟩
      · rcases List.mem_pair.1 hmem with rfl | rfl <;> rfl
      · rcases List.mem_pair.1 hmem with rfl | rfl <;> rfl
    have halike := ((resolves_in_any_order oneName hunambiguous (by simp)).2.2 carries_oneName halone [pinned, counting]
      (.swap _ _ _)).2 _ _ _ _ hall hall' (noneRedirected_of_all hnone) (noneRedirected_of_all hnone')
    exact halike "c" ⟨0⟩ ⟨1⟩ (by simp) (by simp)

/-! ## What depends on the order -/

def pairRegistered : Session := performAll oneName (registering [pinned, holder "a"])

def pinnedFirst : Except Halt TypeId × Session := pairRegistered.process oneName pinned.1 pinned.2

def holderSecond : Except Halt TypeId × Session := pinnedFirst.2.process oneName (holder "a").1 (holder "a").2

def holderFirst : Except Halt TypeId × Session := pairRegistered.process oneName (holder "a").1 (holder "a").2

def pinnedSecond : Except Halt TypeId × Session := holderFirst.2.process oneName pinned.1 pinned.2

/-- A value whose part is not the one value. -/
def unpinnedValue : Json := .object [("x", .object [])]

set_option maxRecDepth 100000 in
/-- **A root that is processed first loses its constant.**  Whoever refers to it then accepts any object, and only
the one value if the reference has built it. -/
theorem not_forall_valid_in_any_order : ¬ ∀ (config : Config) (documents order order' : List (Source × Json))
    (roots roots' : List (String × TypeId)) (s s' : Session) (key : String) (root root' : TypeId) (value : Json)
    (bound : Nat) (a b : Evaluation.Result),
    Building.Distinct (documents.map filed) → order.Perm documents → order'.Perm documents →
    ProcessesAll config (performAll config (registering documents)) order roots s →
    ProcessesAll config (performAll config (registering documents)) order' roots' s' →
    (key, root) ∈ roots → (key, root') ∈ roots' →
    Evaluation.run s.graph .collectAll bound root value = some a →
    Evaluation.run s'.graph .collectAll bound root' value = some b → a.isValid = b.isValid := by
  intro h
  have hfacts : pinnedFirst.1.toOption = some ⟨0⟩ ∧ holderSecond.1.toOption = some ⟨1⟩ ∧
      holderFirst.1.toOption = some ⟨0⟩ ∧ pinnedSecond.1.toOption = some ⟨2⟩ ∧
      (Evaluation.run holderSecond.2.graph .collectAll 9 ⟨1⟩ unpinnedValue).map (·.isValid) = some true ∧
      (Evaluation.run pinnedSecond.2.graph .collectAll 9 ⟨0⟩ unpinnedValue).map (·.isValid) = some false := by
    decide +kernel
  obtain ⟨hpinned, hholder, hholder', hpinned', hvalid, hinvalid⟩ := hfacts
  obtain ⟨a, ha, hvalid⟩ := Option.map_eq_some_iff.1 hvalid
  obtain ⟨b, hb, hinvalid⟩ := Option.map_eq_some_iff.1 hinvalid
  have hfirst : ProcessesAll oneName pairRegistered [pinned, holder "a"] [("a", ⟨0⟩), ("b", ⟨1⟩)] holderSecond.2 :=
    .cons (eq_ok_of_toOption hpinned) (.cons (eq_ok_of_toOption hholder) .nil)
  have hsecond : ProcessesAll oneName pairRegistered [holder "a", pinned] [("b", ⟨0⟩), ("a", ⟨2⟩)] pinnedSecond.2 :=
    .cons (eq_ok_of_toOption hholder') (.cons (eq_ok_of_toOption hpinned') .nil)
  have hsame := h oneName [pinned, holder "a"] [pinned, holder "a"] [holder "a", pinned] _ _ _ _ "b" ⟨1⟩ ⟨0⟩
    unpinnedValue 9 a b (unambiguous_pinned_holder "a").keys (.refl _) (.swap _ _ _) hfirst hsecond
    (by simp) (by simp) ha hb
  rw [hvalid, hinvalid] at hsame
  cases hsame

end Session
end SchemaTypes
