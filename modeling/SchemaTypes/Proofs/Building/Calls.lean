import SchemaTypes.Building.Process
import SchemaTypes.Proofs.Building.Definitions
/-!
# Calls, whatever comes of them

A session lives through calls: documents are registered and processed, and a document at fault leaves what had been
written.  `Session.performAll` is any such life.  What every write keeps holds all along.
-/
namespace SchemaTypes

namespace Building

/-- The node a document's root type is made of: the one its own reference leads to, else the document. -/
def rootNode (documents : Reference.Documents) (source : Source) (value : Json) : Json :=
  match value.stringAt? "$ref" with
  | some reference => ((targetIn? documents source.key reference).map (·.node)).getD value
  | none => value

theorem rootNode_of_own {documents : Reference.Documents} {source : Source} {value : Json} {own : String}
    (hown : value.stringAt? "$ref" = some own) :
    rootNode documents source value = ((targetIn? documents source.key own).map (·.node)).getD value := by
  unfold rootNode
  rw [hown]

/-- The scene of a document's root.  Its references start from the document, also where another one holds the node. -/
def Scene.root (config : Config) (documents : Reference.Documents) (source : Source) (value : Json) : Scene :=
  { config, documents, document := source.key, spelled := references (rootNode documents source value) }

namespace Scene

variable {scene : Scene} {config : Config} {s s' : Session} {source : Source} {value : Json} {scope : Scope}
  {build : Builder} {type : TypeId}

theorem reads_rootOf (hd : scope.document = source.key) :
    (root config s.documents source value).Reads s (rootOf source scope value) fun found =>
      found.1 = rootNode s.documents source value := by
  unfold rootOf
  split
  · rename_i reference hown
    have hmem : reference ∈ references value := by
      obtain ⟨found, hget, htext⟩ := Option.bind_eq_some_iff.1 hown
      cases found with
      | string text =>
        cases htext
        exact mem_references_of_get hget
      | _ => cases htext
    refine (reads_locate (by exact hd) fun hnone => ?_).bind fun target htarget => ?_
    -- Without a target, the document itself is what spells the reference.
    · have hself : rootNode s.documents source value = value := (rootNode_of_own hown).trans (hnone ▸ rfl)
      refine .here ?_ hnone
      change reference ∈ references (rootNode s.documents source value)
      rw [hself]
      exact hmem
    · have htargeted : rootNode s.documents source value = target.node := (rootNode_of_own hown).trans (htarget ▸ rfl)
      split
      · exact reads_pure htargeted.symm
      · exact reads_refuse trivial
  · rename_i hnone
    split
    · refine reads_pure ?_
      unfold rootNode
      rw [hnone]
    · exact reads_refuse trivial

/-- A root that is a definition is completed by its instance. -/
theorem yields_completeRoot {className : String} {key : DefinitionKey} (htype : s.graph.HasType type) :
    scene.Yields s (do
      let definition ← Build.addProperty (← instanceProperty className type true)
      complete key definition
      return type) fun target s' => s'.graph.HasType target := by
  refine (reads_instanceProperty htype).yieldsThen fun property hproperty => ?_
  refine (yields_addProperty hproperty.knows hproperty.inStep).bind fun definition m hm hadded => ?_
  refine (yields_complete hadded.1).bind fun _ t ht _ => ?_
  exact yields_pure ((htype.grows hm.grows).grows ht.grows)

/-- From the session with the document stored, both outcomes of processing it are as the scene of its root says. -/
theorem document_outcomes
    (hs : (root config (s.register source value).documents source value).Stands (s.register source value)) :
    (∀ type s', (Building.document source value).Runs config s type s' →
      Session.Writes config.settings.implicitNull (s.register source value) s' ∧
        (s.register source value).AsFinished s' ∧ s'.graph.HasType type) ∧
      ∀ halt s', (Building.document source value).Halts config s halt s' →
        Session.Writes config.settings.implicitNull (s.register source value) s' ∧
          (root config (s.register source value).documents source value).Explains halt := by
  unfold Building.document
  -- Storing the document is no write of the scene, which has it from the start.
  simp only [Build.runs_modify_bind, Build.halts_modify_bind]
  revert hs
  change (root config (s.register source value).documents source value).Yields (s.register source value) _
    fun type s' => s'.graph.HasType type
  generalize s.register source value = stored
  refine Yields.after (Build.runs_get.2 ⟨rfl, rfl⟩) ?_
  refine (reads_rootOf rfl).yieldsThen fun found hfound => ?_
  obtain ⟨node, key⟩ := found
  obtain rfl : node = rootNode stored.documents source value := hfound
  have hb := accepts_property (recursionBound stored.documents) (root config stored.documents source value)
  refine yields_bracket ends_reserve fun type m htype => ?_
  refine Reads.endsThen (q := (· = m.graph)) (reads_of_runs (Build.runs_graph.2 ⟨rfl, rfl⟩) rfl) fun graph _ => ?_
  simp only
  cases key with
  | none =>
    refine Ends.bind (yields_fill hb (by exact rfl) (List.Subset.refl _)) fun _ t ht hfilled => ?_
    refine Ends.bind (ends_finish (htype.grows ht.grows)) fun target u _ hfinished => ?_
    refine Ends.imp (yields_pure (P := fun target s' => s'.graph.HasType target) hfinished.1) fun _ v hv => ?_
    exact ⟨(hfilled.1.finishedOne hfinished.2).trans hv.1, hv.2⟩
  | some key =>
    refine Ends.bind (yields_setDefinition ?_) fun _ t ht hbegun => ?_
    · exact ⟨fun id heq => by cases heq; exact htype, fun _ hid => absurd hid List.not_mem_nil⟩
    · refine Ends.bind (yields_fill hb (by exact rfl) (List.Subset.refl _)) fun _ u hu hfilled => ?_
      refine Ends.bind (ends_finish ((htype.grows ht.grows).grows hu.grows)) fun target v _ hfinished => ?_
      refine Ends.imp (yields_completeRoot hfinished.1) fun _ w hw => ?_
      exact ⟨((hbegun.1.finishedOne (hfilled.1.finishedOne hfinished.2))).trans hw.1, hw.2⟩

end Scene
end Building

/-! ## Sessions -/

/-- One call to a session. -/
inductive Call where
  | register (source : Source) (value : Json)
  | process (source : Source) (value : Json)

namespace Session

/-- The session after a call, failed or not. -/
def perform (config : Config) (session : Session) : Call → Session
  | .register source value => session.register source value
  | .process source value => (session.process config source value).2

/-- The session after calls, from a fresh one. -/
def performAll (config : Config) (calls : List Call) : Session := calls.foldl (perform config) {}

theorem performAll_append (config : Config) (calls later : List Call) :
    performAll config (calls ++ later) = later.foldl (perform config) (performAll config calls) := List.foldl_append

/-- What holds between calls, failed ones included. -/
structure Orderly (config : Config) (s : Session) : Prop where
  closed : s.Closed
  inStep : ∀ id, (s.graph.property id).InStep config.settings.implicitNull

variable {config : Config} {s s' : Session} {source : Source} {value : Json}

theorem Orderly.register (h : s.Orderly config) (source : Source) (value : Json) :
    (s.register source value).Orderly config :=
  ⟨⟨h.closed.properties, h.closed.types, h.closed.signatures, h.closed.definitions⟩, h.inStep⟩

theorem Orderly.stands (h : s.Orderly config) (source : Source) (value : Json) :
    (Building.Scene.root config (s.register source value).documents source value).Stands (s.register source value) :=
  ⟨rfl, (h.register source value).closed, h.inStep⟩

/-- However a document ends, its processing stores it and makes writes. -/
theorem Orderly.writes_process (h : s.Orderly config) (source : Source) (value : Json) :
    Writes config.settings.implicitNull (s.register source value) (s.process config source value).2 := by
  obtain ⟨hok, herror⟩ := Building.Scene.document_outcomes (h.stands source value)
  cases hresult : s.process config source value with
  | mk outcome s' =>
    cases outcome with
    | ok type => exact (hok type s' hresult).1
    | error halt => exact (herror halt s' hresult).1

theorem Orderly.perform (h : s.Orderly config) (call : Call) : (s.perform config call).Orderly config := by
  cases call with
  | register source value => exact h.register source value
  | process source value =>
    have hwrites := h.writes_process source value
    exact ⟨hwrites.closed (h.register source value).closed, hwrites.inStep h.inStep⟩

/-- What every call keeps, calls keep. -/
theorem keeps_performs {P : Session → Prop} (hperform : ∀ s call, P s → P (perform config s call)) :
    ∀ (calls : List Call) (s : Session), P s → P (calls.foldl (perform config) s)
  | [], _, hs => hs
  | call :: calls, s, hs => keeps_performs hperform calls (s.perform config call) (hperform s call hs)

/-- **Calls keep a session orderly**, the failed ones too. -/
theorem orderly_performAll (config : Config) (calls : List Call) : (performAll config calls).Orderly config :=
  keeps_performs (fun _ call hs => hs.perform call) calls {} ⟨closed_initial, fun _ => Property.inStep_default⟩

end Session
end SchemaTypes
