import SchemaTypes.Proofs.Building.Duplicates
import SchemaTypes.Proofs.Building.Passages
/-!
# The cache of definitions and the stored documents

What a reference gets is copied from the definition that is cached for its target, and a definition is cached for the
rest of the run.  In a run that stores no document which changes a node under a cached definition
(`Session.Agrees`), every cached definition has been made of the very node that a reference now finds
(`Session.Ran.cache_current`).

A document that is stored under a key in use is not held to that.  The definitions of the one it replaces stay cached,
and a reference into the new document gets the old content.
-/
namespace SchemaTypes

namespace Session

variable {config : Config} {opens : DefinitionKey → Prop} {stores : Session → Source → Json → Prop} {s m s' : Session}
  {key : DefinitionKey} {id : PropertyId} {source : Source} {value : Json} {type : TypeId}

/-! ## Runs of successful calls -/

/-- A session between successful calls, each of which has stored a document as it may. -/
inductive Ran (config : Config) (stores : Session → Source → Json → Prop) : Session → Prop
  | initial : Ran config stores {}
  | register {s : Session} {source : Source} {value : Json} : Ran config stores s → stores s source value →
    Ran config stores (s.register source value)
  | process {s s' : Session} {source : Source} {value : Json} {type : TypeId} : Ran config stores s →
    stores s source value → s.process config source value = (.ok type, s') → Ran config stores s'

/-- From a document that has been stored to where the deeds of its call start. -/
theorem passages_start {stored start : Session} (h : Building.Starts stored source value start)
    (hopens : ∀ key, Building.rootKey? stored.documents source value = some key → opens key) :
    Passages config opens stores stored start := by
  cases h with
  | bare namespaceName className => exact .single (.deed (.reserve namespaceName className true))
  | @root namespaceName className key node hkey hnode =>
    have hu := (Building.Course.unfinished_reserve stored namespaceName className true _).2 (Or.inr rfl)
    exact (Relation.ReflTransGen.single (.deed (.reserve namespaceName className true))).tail
      (.root (hopens key hkey) hnode hu)

/-- **A successful call is made of passages.** -/
theorem passages_process (hs : Passages config (fun _ => True) stores {} s) (hrest : s.Resting)
    (hstores : stores s source value) (h : s.process config source value = (.ok type, s'))
    (hopens : ∀ key, Building.rootKey? (s.register source value).documents source value = some key → opens key) :
    Passages config opens stores s s' ∧ s'.Resting := by
  obtain ⟨start, hstart, hdeeds, hrest'⟩ := Building.runs_document_deeds False hrest hs.distinct hs.collapsed
    (fun hfalse => hfalse.elim) h
  exact ⟨.head (.store hstores) ((passages_start hstart hopens).trans hdeeds.passages), hrest'⟩

theorem Ran.passages (h : Ran config stores s) : Passages config (fun _ => True) stores {} s ∧ s.Resting := by
  induction h with
  | initial => exact ⟨.refl, fun key type hpending => nomatch hpending.choose_spec⟩
  | register _ hstores ih => exact ⟨ih.1.tail (.store hstores), ih.2⟩
  | process _ hstores hrun ih =>
    obtain ⟨hpassages, hrest⟩ := passages_process ih.1 ih.2 hstores hrun fun _ _ => trivial
    exact ⟨ih.1.trans hpassages, hrest⟩

/-! ## What is cached -/

/-- Storing the document leaves every node alone that a definition has been begun for. -/
def Agrees (s : Session) (source : Source) (value : Json) : Prop :=
  ∀ key, s.definition? key ≠ none →
    Building.nodeAt? (s.register source value).documents key = Building.nodeAt? s.documents key

/-- The definition was made, earlier in the run, of the node that is now found under its key. -/
def MadeOfCurrent (config : Config) (s : Session) (key : DefinitionKey) (id : PropertyId) : Prop :=
  ∃ node type m, Building.nodeAt? s.documents key = some node ∧ Building.Made config node type id m ∧
    Passages config (fun _ => True) Agrees {} m ∧ Passages config (fun _ => True) Agrees m s

/-- Every definition that is built has been made of the node now found under its key. -/
def Coherent (config : Config) (s : Session) : Prop :=
  ∀ key id, s.definition? key = some (.built id) → s.MadeOfCurrent config key id

theorem MadeOfCurrent.passage (h : s.MadeOfCurrent config key id)
    (hpassage : Passage config (fun _ => True) Agrees s s')
    (hnode : Building.nodeAt? s'.documents key = Building.nodeAt? s.documents key) :
    s'.MadeOfCurrent config key id := by
  obtain ⟨node, type, m, hfound, hmade, hstart, hpassages⟩ := h
  exact ⟨node, type, m, hnode.trans hfound, hmade, hstart, hpassages.tail hpassage⟩

/-- **Passages that agree with what is cached keep the cache coherent.** -/
theorem Passage.coherent (h : Passage config (fun _ => True) Agrees s s')
    (hstart : Passages config (fun _ => True) Agrees {} s) (hs : s.Coherent config) : s'.Coherent config := by
  intro key id hbuilt
  have hpassage := h
  cases h with
  | deed hdeed =>
    have hnode : Building.nodeAt? s'.documents key = Building.nodeAt? s.documents key := by rw [hdeed.documents]
    cases hdeed.turn key with
    | same hsame => exact (hs key id (hsame ▸ hbuilt)).passage hpassage hnode
    | begun _ _ _ hset =>
      rw [hset] at hbuilt
      cases hbuilt
    | awaited _ hset =>
      rw [hset] at hbuilt
      cases hbuilt
    | @completed type _ _ node _ hfound hmade _ hset =>
      rw [hset] at hbuilt
      cases hbuilt
      exact ⟨node, type, s, hnode.trans hfound, hmade, hstart, .single hpassage⟩
  | store hagrees =>
    have hbegun : s.definition? key ≠ none := fun hnone => nomatch hbuilt.symm.trans hnone
    exact (hs key id hbuilt).passage hpassage (hagrees key hbegun)
  | root =>
    rw [definition?_setDefinition] at hbuilt
    split at hbuilt
    · cases hbuilt
    · exact (hs key id hbuilt).passage hpassage rfl

theorem Passages.coherent (h : Passages config (fun _ => True) Agrees {} s) : s.Coherent config := by
  induction h with
  | refl => exact fun _ _ hbuilt => nomatch hbuilt
  | tail hstart hlast ih => exact hlast.coherent hstart ih

/-- **What is cached is what is stored**, after calls that agree with what is cached: a definition has been made of the
very node now found under its key, and a reference to that node gets a copy of it. -/
theorem Ran.cache_current (h : Ran config Agrees s) (hbuilt : s.definition? key = some (.built id)) :
    s.MadeOfCurrent config key id ∧
      ∀ (build : Builder) (site : Site) (reference : String) (target : Building.Target) (copy : PropertyId)
        (s' : Session), Building.targetIn? s.documents site.scope.document reference = some target → target.key = key →
        (Building.refer build site reference).Runs config s copy s' →
        Building.nodeAt? s.documents key = some target.node ∧ ∃ identifier, s'.graph.property copy =
          Building.copied (s.graph.property id) site.name identifier site.required config.settings.implicitNull := by
  refine ⟨h.passages.1.coherent key id hbuilt, fun build site reference target copy s' htarget hkey hrun => ?_⟩
  subst hkey
  refine ⟨Building.nodeAt?_target h.passages.1.distinct htarget, ?_⟩
  obtain ⟨found, hfound, hcases⟩ := Building.runs_refer hrun
  cases htarget.symm.trans hfound
  rcases hcases with ⟨definition, hdefinition, hcopy⟩ | ⟨type, waiting, hpending, _⟩ | ⟨hnone, _⟩
  · cases hbuilt.symm.trans hdefinition
    obtain ⟨identifier, rfl, rfl⟩ := Building.runs_copy hcopy
    exact ⟨identifier, Graph.property_addProperty _ _⟩
  · cases hbuilt.symm.trans hpending
  · cases hbuilt.symm.trans hnone

/-- A property that refers to a definition of another document. -/
def reader : Json :=
  .object [("type", .string "object"), ("properties", .object
    [("x", .object [("$ref", .string "d#/definitions/n")])])]

/-- A document of one definition. -/
def defining (word : String) : Json :=
  .object [("definitions", .object [("n", .object [("type", .string word)])])]

def readerRun : Except Halt TypeId × Session :=
  (register {} ⟨"d", "", "D"⟩ (defining "string")).process oneName ⟨"b", "", "B"⟩ reader

set_option maxRecDepth 100000 in
/-- The definition that has been read is one of the document that defines it. -/
theorem cache_current_reader : ∃ id, readerRun.2.definition? ⟨"d", "/definitions/n"⟩ = some (.built id) ∧
    readerRun.2.MadeOfCurrent oneName ⟨"d", "/definitions/n"⟩ id := by
  have hfacts : readerRun.1.toOption = some ⟨0⟩ ∧
      (readerRun.2.built? ⟨"d", "/definitions/n"⟩).isSome = true := by decide +kernel
  obtain ⟨hok, hbuilt⟩ := hfacts
  obtain ⟨id, hid⟩ := Option.isSome_iff_exists.1 hbuilt
  have hdefinition := definition?_of_built? hid
  have hnone : ∀ (s : Session) (source : Source) (value : Json), s.definitions = [] → s.Agrees source value := by
    intro s source value hempty key hbegun
    unfold Session.definition? at hbegun
    rw [hempty] at hbegun
    exact absurd rfl hbegun
  have hran : Ran oneName Agrees readerRun.2 :=
    .process (.register .initial (hnone _ _ _ rfl)) (hnone _ _ _ rfl) (eq_ok_of_toOption hok)
  exact ⟨id, hdefinition, (hran.cache_current hdefinition).1⟩

/-- The names that a property of a type is declared by. -/
def declaredAs (session : Session) (type : TypeId) (name : String) : List String :=
  ((session.graph.findProperty? type name).map fun id => (session.graph.property id).names).getD []

/-- The document that has been read is replaced by one that defines something else. -/
def replaced : Session := readerRun.2.register ⟨"d", "", "D"⟩ (defining "integer")

set_option maxRecDepth 100000 in
/-- **A reference may get the content of a document that has been replaced.**  Without the cache, the new document is
what counts. -/
theorem not_forall_process_current : ¬ ∀ (config : Config) (s s' t' : Session) (source : Source) (value : Json)
    (root root' : TypeId) (name : String), Reached config (fun _ => True) s →
    s.process config source value = (.ok root, s') →
    { s with definitions := [] }.process config source value = (.ok root', t') →
    s'.declaredAs root name = t'.declaredAs root' name := by
  intro h
  have hfacts : readerRun.1.toOption = some ⟨0⟩ ∧
      (replaced.process oneName ⟨"c", "", "C"⟩ reader).1.toOption = some ⟨1⟩ ∧
      ({ replaced with definitions := [] }.process oneName ⟨"c", "", "C"⟩ reader).1.toOption = some ⟨1⟩ ∧
      (replaced.process oneName ⟨"c", "", "C"⟩ reader).2.declaredAs ⟨1⟩ "x" = ["string"] ∧
      ({ replaced with definitions := [] }.process oneName ⟨"c", "", "C"⟩ reader).2.declaredAs ⟨1⟩ "x" =
        ["integer"] := by decide +kernel
  obtain ⟨hok, hcached, hfresh, hold, hnew⟩ := hfacts
  have hreached : Reached oneName (fun _ => True) replaced :=
    .register _ _ (.process (.register _ _ .initial) trivial (eq_ok_of_toOption hok))
  have hsame := h oneName replaced _ _ ⟨"c", "", "C"⟩ reader ⟨1⟩ ⟨1⟩ "x" hreached (eq_ok_of_toOption hcached)
    (eq_ok_of_toOption hfresh)
  rw [hold, hnew] at hsame
  exact absurd hsame (by decide)

end Session
end SchemaTypes
