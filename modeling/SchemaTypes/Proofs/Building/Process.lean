import SchemaTypes.Building.Process
import SchemaTypes.Proofs.Building.Nodes
/-!
# Runs of whole documents

Processing a document stores it, reserves its root type, begins the root's definition, and from there on takes
steps.  At the end nothing is in progress (`runs_document`).  A session is reached by registering documents and
processing them with success.
-/
namespace SchemaTypes

namespace Session

/-- Nothing is in progress. -/
def Resting (session : Session) : Prop := ∀ key type, ¬ session.InProgress key type

/-- A session between the runs of one configuration; `ok` holds of the documents of every run. -/
inductive Reached (config : Config) (ok : Reference.Documents → Prop) : Session → Prop
  | initial : Reached config ok {}
  | register {s : Session} (source : Source) (value : Json) : Reached config ok s →
    Reached config ok (s.register source value)
  | process {s s' : Session} {source : Source} {value : Json} {type : TypeId} : Reached config ok s →
    ok (s.register source value).documents → s.process config source value = (.ok type, s') →
    Reached config ok s'

/-- Where the steps of a document start: its root type has been reserved, and the root's definition, if it has
one here, is in progress. -/
structure Opened (stored start : Session) : Prop where
  documents : start.documents = stored.documents
  graph : ∃ namespaceName className, start.graph = (stored.graph.reserve namespaceName className true).2
  signatures : start.signatures = stored.signatures
  definition : ∀ key, start.definition? key = stored.definition? key ∨
    ∃ type, start.definition? key = some (.inProgress (some type) [])

variable {stored start : Session}

theorem Resting.not_waits (h : stored.Resting) (key : DefinitionKey) (id : PropertyId) :
    ¬ stored.Waits key id := by
  intro hwaits
  obtain ⟨type, hpending⟩ := hwaits.inProgress
  exact h key type hpending

/-- Where the steps start, no property waits yet. -/
theorem Opened.not_waits (h : Opened stored start) (hrest : stored.Resting) (key : DefinitionKey)
    (id : PropertyId) : ¬ start.Waits key id := by
  rintro ⟨type, waiting, hdefinition, hmem⟩
  rcases h.definition key with hsame | ⟨root, hroot⟩
  · exact hrest key type ⟨waiting, hsame ▸ hdefinition⟩
  · rw [hroot] at hdefinition
    cases hdefinition
    exact List.not_mem_nil hmem

theorem Opened.sound (h : Opened stored start) (hrest : stored.Resting) (hs : stored.Sound) : start.Sound := by
  obtain ⟨namespaceName, className, hgraph⟩ := h.graph
  have hproperty : ∀ id, start.graph.property id = stored.graph.property id := by
    intro id
    rw [hgraph]
    rfl
  refine ⟨fun id hid => ?_, fun key id hid => ?_, fun key other id hid _ => ?_, fun key definition hbuilt => ?_⟩
  · rw [hproperty] at hid
    obtain ⟨key, hkey⟩ := hs.waits id hid
    exact absurd hkey (hrest.not_waits key id)
  · exact absurd hid (h.not_waits hrest key id)
  · exact absurd hid (h.not_waits hrest key id)
  · rcases h.definition key with hsame | ⟨root, hroot⟩
    · have hsettled := hs.built key definition (hsame ▸ hbuilt)
      refine ⟨?_, (congrArg Property.defers (hproperty definition)).trans hsettled.defers⟩
      rw [hgraph]
      exact hsettled.lt
    · rw [hroot] at hbuilt
      cases hbuilt

end Session

namespace Building

variable {config : Config} {s s' : Session} {source : Source} {value : Json} {type : TypeId}

/-- Finding the root only reads. -/
theorem runs_rootOf {scope : Scope} {root : Json × Option DefinitionKey}
    (h : (rootOf source scope value).Runs config s root s') : s' = s := by
  unfold rootOf at h
  split at h
  · obtain ⟨target, m, hlocate, hrest⟩ := Build.runs_bind.1 h
    obtain rfl : m = s := by
      unfold locate at hlocate
      rw [Build.runs_get_bind] at hlocate
      split at hlocate
      · exact (Build.runs_pure.1 hlocate).2
      · exact absurd hlocate Build.not_runs_refuse
    split at hrest
    · exact (Build.runs_pure.1 hrest).2
    · exact absurd hrest Build.not_runs_refuse
  · split at h
    · exact (Build.runs_pure.1 h).2
    · exact absurd h Build.not_runs_refuse

variable {env : Env} {start m : Session} {scope : Scope} {root : Json} {build : Builder} {id target : TypeId}

/-- From where its steps start, a root is filled in and finished. -/
theorem runs_root (hb : env.Accepts build) (hd : scope.document = env.document)
    (hr : references root ⊆ env.spelled) (hs : env.Holds start) (hu : env.Unfinished start id) {u : Unit}
    (hfill : (fill build scope id root).Runs env.config start u m)
    (hfinish : (finish id).Runs env.config m target s') :
    env.AfterFinishing id start s' ∧ (s'.graph.entry id).signature ≠ none ∧
      (target = id ∨ (s'.graph.entry id).redirect = some target) := by
  obtain ⟨hfilled, _⟩ := Env.ensures_fill hb hd hr hu.floor hs hfill
  have hlt := Nat.lt_of_lt_of_le hu.lt hfilled.steps.size_types_le
  have hu' : env.Unfinished m id := ⟨hu.floor, hlt, (hfilled.signature id hu.lt).trans hu.signature⟩
  obtain ⟨hfinished, hsignature, htarget⟩ := Env.runs_finish_unfinished hu' hfinish
  exact ⟨hfilled.toFinishing.trans hfinished, hsignature, htarget⟩

/-- A root that is a definition here is completed by its instance. -/
theorem runs_completeRoot (hs : env.Holds m) {key : DefinitionKey} (hpending : m.InProgress key (some id))
    (hsignature : (m.graph.entry id).signature ≠ none)
    (htarget : target = id ∨ (m.graph.entry id).redirect = some target) {className : String} {u : Unit}
    (h : (do
      let definition ← Build.addProperty (← instanceProperty className target true)
      complete key definition : Build Unit).Runs env.config m u s') :
    Session.Steps env.tidy env.allowed env.floor m s' ∧
      ∀ other type, s'.InProgress other type ↔ other ≠ key ∧ m.InProgress other type := by
  obtain ⟨property, m₁, hinstance, hrest⟩ := Build.runs_bind.1 h
  obtain ⟨definition, m₂, hadd, hcomplete⟩ := Build.runs_bind.1 hrest
  obtain ⟨hafter, hclean, hdemands⟩ := Env.ensures_instanceProperty hs hinstance
  obtain ⟨hadded, hsettled⟩ := Env.ensures_addProperty hclean (hs.after hafter) hadd
  have hboth := hafter.trans hadded
  obtain ⟨waiting, hpending'⟩ := (hboth.inProgress key (some id)).2 hpending
  obtain rfl := (Env.runs_complete hpending').1 hcomplete
  obtain ⟨hsignature', hredirect⟩ := hboth.steps.finished hsignature
  have hrepresents : m₂.Represents definition id := by
    refine ⟨hsignature' ▸ hsignature, target, htarget.imp_right fun h => hredirect.trans h, ?_⟩
    obtain ⟨rfl, rfl⟩ := Build.runs_addProperty.1 hadd
    exact (congrArg Property.demands (Graph.property_addProperty _ _)).trans hdemands
  have hcompletes : env.tidy → m₂.Completes key (some id) definition := by
    refine fun _ => ⟨hsettled, fun known heq _ => ?_⟩
    cases heq
    exact hrepresents
  refine ⟨hboth.steps.tail (.complete hpending' hcompletes), fun other type => ?_⟩
  rw [← hboth.inProgress]
  unfold Session.InProgress
  rw [Session.definition?_completed]
  split
  · rename_i heq
    constructor
    · rintro ⟨_, hsome⟩
      cases hsome
    · exact fun h => absurd heq h.1
  · rename_i hne
    exact ⟨fun h => ⟨hne, h⟩, fun h => h.2⟩

/-- What a document owes where its steps start. -/
theorem holds_opened (config : Config) (document : String) (spelled : List String) {tidy : Prop}
    {stored : Session} (hopened : Session.Opened stored start)
    (hrest : stored.Resting)
    (htidy : tidy → stored.Sound ∧ Distinct stored.documents ∧ NoAliasCycle stored.documents) :
    (Env.mk tidy config document spelled stored.graph.types.size).Holds start := by
  obtain ⟨namespaceName, className, hgraph⟩ := hopened.graph
  have hnone : ∀ key, ¬ start.InProgress key none := by
    rintro key ⟨waiting, hpending⟩
    rcases hopened.definition key with hsame | ⟨known, hknown⟩
    · exact hrest key none ⟨waiting, hsame ▸ hpending⟩
    · rw [hknown] at hpending
      cases hpending
  refine ⟨?_, fun ht => ?_⟩
  · rw [hgraph]
    simp [Graph.reserve]
  · obtain ⟨hsound, hdistinct, hcycle⟩ := htidy ht
    exact ⟨hopened.sound hrest hsound, hopened.documents ▸ hdistinct, hopened.documents ▸ hcycle,
      fun key hkey => absurd hkey (hnone key), fun key hkey => absurd hkey (hnone key)⟩

/-- **Processing a document takes steps** from where its root is begun, and leaves nothing in progress. -/
theorem runs_document (tidy : Prop) (hrest : s.Resting)
    (htidy : tidy → s.Sound ∧ Distinct (s.register source value).documents ∧
      NoAliasCycle (s.register source value).documents)
    (h : (document source value).Runs config s type s') :
    ∃ start, Session.Opened (s.register source value) start ∧
      Session.Steps tidy config.settings.implicitNull s.graph.types.size start s' ∧ s'.Resting := by
  unfold document at h
  rw [Build.runs_modify_bind, Build.runs_get_bind] at h
  simp only at h
  obtain ⟨⟨root, key⟩, m, hroot, hrun⟩ := Build.runs_bind.1 h
  obtain rfl := runs_rootOf hroot
  clear h hroot
  simp only at hrun
  obtain ⟨id, m, hreserve, hrun'⟩ := Build.runs_bind.1 hrun
  obtain ⟨rfl, rfl⟩ := Build.runs_reserve.1 hreserve
  rw [Build.runs_graph_bind] at hrun'
  clear hrun hreserve
  have hstored : (s.register source value).Resting := hrest
  have htidy' : tidy → (s.register source value).Sound ∧ Distinct (s.register source value).documents ∧
      NoAliasCycle (s.register source value).documents := by
    intro ht
    obtain ⟨hsound, hdocuments⟩ := htidy ht
    exact ⟨hsound.congr (fun _ => rfl) (Nat.le_refl _) fun _ => rfl, hdocuments⟩
  have hb := Env.accepts_property (recursionBound (s.register source value).documents)
    (Env.mk tidy config source.key (references root) s.graph.types.size)
  have hunfinished : ∀ start : Session,
      start.graph = (s.graph.reserve source.namespaceName source.className true).2 →
        (Env.mk tidy config source.key (references root) s.graph.types.size).Unfinished start ⟨s.graph.types.size⟩ := by
    intro start hgraph
    refine ⟨Nat.le_refl _, ?_, ?_⟩
    · rw [hgraph]
      simp [Graph.reserve]
    · rw [hgraph]
      simp [Graph.reserve, Graph.entry]
  cases key with
  | none =>
    simp only at hrun'
    obtain ⟨_, m, hfill, hrest'⟩ := Build.runs_bind.1 hrun'
    obtain ⟨target, m', hfinish, hreturn⟩ := Build.runs_bind.1 hrest'
    obtain ⟨rfl, rfl⟩ := Build.runs_pure.1 hreturn
    have hopened : Session.Opened (s.register source value) ((s.register source value).withGraph
        (s.graph.reserve source.namespaceName source.className true).2) :=
      ⟨rfl, ⟨_, _, rfl⟩, rfl, fun _ => Or.inl rfl⟩
    have hholds := holds_opened config source.key (references root) hopened hstored htidy'
    obtain ⟨hafter, _, _⟩ := runs_root hb rfl (List.Subset.refl _) hholds (hunfinished _ rfl) hfill hfinish
    exact ⟨_, hopened, hafter.steps, fun key type hpending => hrest key type ((hafter.inProgress key type).1 hpending)⟩
  | some key =>
    simp only at hrun'
    rw [Build.runs_modify_bind] at hrun'
    obtain ⟨_, m, hfill, hrest'⟩ := Build.runs_bind.1 hrun'
    obtain ⟨target, m', hfinish, hcomplete⟩ := Build.runs_bind.1 hrest'
    have hopened : Session.Opened (s.register source value) (((s.register source value).withGraph
        (s.graph.reserve source.namespaceName source.className true).2).setDefinition key
          (.inProgress (some ⟨s.graph.types.size⟩) [])) := by
      refine ⟨rfl, ⟨_, _, rfl⟩, rfl, fun other => ?_⟩
      rw [Session.definition?_setDefinition]
      split
      · exact Or.inr ⟨_, rfl⟩
      · exact Or.inl rfl
    have hholds := holds_opened config source.key (references root) hopened hstored htidy'
    obtain ⟨hafter, hsignature, htarget⟩ := runs_root hb rfl (List.Subset.refl _) hholds (hunfinished _ rfl)
      hfill hfinish
    have hbegun : ∀ other type, m'.InProgress other type → other ≠ key → False := by
      rintro other type hpending hne
      obtain ⟨waiting, hpending⟩ := (hafter.inProgress other type).1 hpending
      rw [Session.definition?_setDefinition, if_neg hne] at hpending
      exact hrest other type ⟨waiting, hpending⟩
    have hpending : m'.InProgress key (some ⟨s.graph.types.size⟩) := by
      refine (hafter.inProgress key _).2 ⟨[], ?_⟩
      rw [Session.definition?_setDefinition, if_pos rfl]
    have hsplit : ∃ u, (do
        let definition ← Build.addProperty (← instanceProperty
          ((s.graph.reserve source.namespaceName source.className true).2.entry ⟨s.graph.types.size⟩).name.className
          target true)
        complete key definition : Build Unit).Runs config m' u s' := by
      obtain ⟨property, m₁, hinstance, hrest₁⟩ := Build.runs_bind.1 hcomplete
      obtain ⟨definition, m₂, hadd, hrest₂⟩ := Build.runs_bind.1 hrest₁
      obtain ⟨u, m₃, hdone, hreturn⟩ := Build.runs_bind.1 hrest₂
      obtain ⟨rfl, rfl⟩ := Build.runs_pure.1 hreturn
      exact ⟨u, Build.runs_bind.2 ⟨property, m₁, hinstance, Build.runs_bind.2 ⟨definition, m₂, hadd, hdone⟩⟩⟩
    obtain ⟨u, hsplit⟩ := hsplit
    obtain ⟨hsteps, hinProgress⟩ := runs_completeRoot (hholds.afterFinishing hafter) hpending hsignature htarget hsplit
    refine ⟨_, hopened, hafter.steps.trans hsteps, fun other type hother => ?_⟩
    obtain ⟨hne, hother⟩ := (hinProgress other type).1 hother
    exact hbegun other type hother hne

end Building
end SchemaTypes
