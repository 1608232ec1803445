import SchemaTypes.Proofs.Building.Permanence
/-!
# No id dangles

Every id that a session keeps anywhere has been handed out: in types, properties and checks, in redirects, signatures
and definitions, and in what waits for these (`Session.Intact`).  Single writes keep that, so it holds whatever ends a
run.

A lookup of an id that nobody handed out would read what lies behind the arenas.  So nothing that is done with a graph
depends on that: evaluation and rendering bring the same if anything at all is put there (`intact_performAll`).
-/
namespace SchemaTypes

namespace Graph

variable {graph larger : Graph}

/-- The graph with more properties and types behind its own. -/
def extended (graph : Graph) (properties : Array Property) (types : Array ObjectType) : Graph where
  properties := graph.properties ++ properties
  types := graph.types ++ types

theorem enduresIn_extended (graph : Graph) (properties : Array Property) (types : Array ObjectType) :
    graph.EnduresIn (graph.extended properties types) where
  grows := ⟨by simp [extended], by simp [extended]⟩
  property id hid := by
    unfold HasProperty at hid
    simp [extended, property, Array.getElem?_append, hid]
  entry id hid := by
    unfold HasType at hid
    simp [extended, entry, Array.getElem?_append, hid]

/-- Redirects of types that have been handed out lead on through such types. -/
theorem EnduresIn.follow (h : graph.EnduresIn larger) (hknown : ∀ id, graph.KnowsType (graph.entry id)) :
    ∀ (n : Nat) {id : TypeId}, graph.HasType id → larger.follow n id = graph.follow n id
  | 0, _, _ => rfl
  | n + 1, id, hid => by
    rw [Graph.follow, Graph.follow, h.entry id hid]
    split
    · rename_i target hredirect
      exact h.follow hknown n ((hknown id).redirect target hredirect)
    · rfl

end Graph

namespace Graph.AgreeOn

open Evaluation

variable {base graph other : Graph}

/-! ## Signatures -/

theorem typeText_eq (h : base.AgreeOn graph other) (current : TypeId) {id : TypeId} (hid : base.HasType id) :
    graph.typeText current id = other.typeText current id := by
  unfold typeText
  rw [h.canonical id hid]

theorem validatorText_eq (h : base.AgreeOn graph other) (current : TypeId) {validator : Validator}
    (hcheck : base.KnowsCheck validator.check) {child child' : PropertyId → String}
    (hchild : ∀ id ∈ validator.check.children, child id = child' id) :
    graph.validatorText current child validator = other.validatorText current child' validator := by
  have htypes := List.map_congr_left fun id hid => congrArg ("|" ++ ·) (h.typeText_eq current (hcheck.types id hid))
  have hchildren := List.map_congr_left fun id hid => congrArg (fun text => "\x7b" ++ text ++ "\x7d") (hchild id hid)
  unfold validatorText
  simp only
  rw [htypes, hchildren]

theorem propertyText_eq (h : base.AgreeOn graph other) (current : TypeId) {ids ids' : List PropertyId} {id : PropertyId}
    (hid : base.HasProperty id) (hremaining : base.Remaining ids ids') :
    graph.propertyText current ids id = other.propertyText current ids' id := by
  induction ids, id using Graph.propertyText.induct graph generalizing ids' with
  | case1 ids id hmem ih =>
    have hknows := h.knows id hid
    rw [propertyText, dif_pos hmem, propertyText, dif_pos ((hremaining.mem_iff id hid).1 hmem), ← h.property id hid]
    have hnested : (graph.property id).nested.map (graph.typeText current) =
        (graph.property id).nested.map (other.typeText current) := by
      cases hsome : (graph.property id).nested with
      | none => rfl
      | some type => exact congrArg some (h.typeText_eq current (hknows.nested type hsome))
    have hvalidators := List.map_congr_left fun v hv => h.validatorText_eq current (hknows.checks v hv)
      fun child hchild => ih child ((hknows.checks v hv).children child hchild) (hremaining.erase id)
    simp only
    rw [hnested, hvalidators]
  | case2 ids id hnot =>
    rw [propertyText, dif_neg hnot, propertyText, dif_neg fun hmem => hnot ((hremaining.mem_iff id hid).2 hmem)]

/-- **Graphs that agree on what is known sign a known type alike.** -/
theorem canonicalText_eq (h : base.AgreeOn graph other) (hgraph : base.Grows graph) (hother : base.Grows other)
    {id : TypeId} (hid : base.HasType id) : graph.canonicalText id = other.canonicalText id := by
  have hknows := h.knowsType id hid
  have hproperty : ∀ current property, base.HasProperty property →
      graph.propertyText current graph.propertyIds property = other.propertyText current other.propertyIds property :=
    fun current property hproperty => h.propertyText_eq current hproperty (remaining_propertyIds hgraph hother)
  unfold canonicalText
  simp only
  rw [← h.entry id hid, ← h.canonical id hid]
  rw [List.map_congr_left fun property hmem => congrArg (· ++ "\n") (hproperty _ property (hknows.properties _ hmem)),
    List.map_congr_left fun v hv => h.validatorText_eq _ (hknows.checks v hv) fun child hchild =>
      hproperty _ child ((hknows.checks v hv).children child hchild)]

end Graph.AgreeOn

namespace Session

variable {config : Config} {allowed : Bool} {s s' : Session}

/-- No id dangles that a session keeps, in its graph or beside it. -/
structure Intact (session : Session) : Prop extends Closed session where
  /-- All that is filed, also under a key that has been filed again since. -/
  filed : ∀ entry ∈ session.definitions, session.KnowsDefinition entry.2

theorem Write.filed (h : Write allowed s s') (hs : ∀ entry ∈ s.definitions, s.KnowsDefinition entry.2) :
    ∀ entry ∈ s'.definitions, s'.KnowsDefinition entry.2 := by
  have hkept : ∀ entry ∈ s.definitions, s'.KnowsDefinition entry.2 := fun entry hentry =>
    (hs entry hentry).grows h.grows
  cases h with
  | finish _ hrun =>
    obtain ⟨_, _, _, hdefinitions, _⟩ := runs_finish hrun
    rw [hdefinitions]
    exact hkept
  | define key hknown =>
    intro entry hentry
    rcases List.mem_append.1 hentry with hentry | hentry
    · exact hkept entry (List.mem_filter.1 hentry).1
    · obtain rfl := List.mem_singleton.1 hentry
      exact hknown
  | _ => exact hkept

/-- **No write leaves an id that dangles.** -/
theorem Write.intact (h : Write allowed s s') (hs : s.Intact) : s'.Intact := ⟨h.closed hs.toClosed, h.filed hs.filed⟩

theorem Writes.intact (h : Writes allowed s s') (hs : s.Intact) : s'.Intact :=
  h.keeps (fun _ _ hwrite => hwrite.intact) hs

theorem Intact.perform (hs : s.Intact) (h : s.Orderly config) (call : Call) : (s.perform config call).Intact := by
  have hregister : ∀ source value, (s.register source value).Intact := fun source value =>
    ⟨⟨hs.properties, hs.types, hs.signatures, hs.definitions⟩, hs.filed⟩
  cases call with
  | register source value => exact hregister source value
  | process source value => exact (h.writes_process source value).intact (hregister source value)

theorem intact_performs (config : Config) (calls : List Call) : (performAll config calls).Intact := by
  have hinitial : Intact {} := ⟨closed_initial, fun _ hentry => absurd hentry List.not_mem_nil⟩
  have hperform : ∀ m call, m.Orderly config ∧ m.Intact →
      (perform config m call).Orderly config ∧ (perform config m call).Intact := fun m call ⟨horderly, hintact⟩ =>
    ⟨horderly.perform call, hintact.perform horderly call⟩
  exact (keeps_performs hperform calls {} ⟨⟨closed_initial, fun _ => Property.inStep_default⟩, hinitial⟩).2

/-- Whatever comes to lie behind the graph of a closed session, its own ids lead to the same. -/
theorem Closed.agreeOn_larger (hclosed : s.Closed) (hsettled : s.RedirectsSettled) {larger : Graph}
    (hendures : s.graph.EnduresIn larger) : s.graph.AgreeOn s.graph larger where
  property id hid := (hendures.property id hid).symm
  entry id hid := (hendures.entry id hid).symm
  canonical id hid := by
    obtain ⟨n, hn⟩ := Nat.exists_eq_add_of_lt (hid.grows hendures.grows)
    unfold Graph.canonical
    rw [hendures.follow hclosed.types _ hid, hn, hsettled.oneStep]
    rfl
  knows id _ := hclosed.properties id
  knowsType id _ := hclosed.types id
  hasCanonical _ hid := hclosed.canonical hid

/-- What is done with the ids of a graph does not depend on what lies behind its arenas. -/
structure Confines (graph larger : Graph) : Prop where
  canonical : ∀ type, graph.HasType type →
    graph.HasType (graph.canonical type) ∧ larger.canonical type = graph.canonical type
  type : ∀ type, graph.HasType type → larger.type type = graph.type type
  run : ∀ type, graph.HasType type → ∀ mode bound value,
    Evaluation.run larger mode bound type value = Evaluation.run graph mode bound type value
  evaluate : ∀ type, graph.HasType type → ∀ mode value, larger.evaluate mode type value = graph.evaluate mode type value
  evaluateProperty : ∀ id, graph.HasProperty id → ∀ mode value,
    larger.evaluateProperty mode id value = graph.evaluateProperty mode id value
  referencedTypes : ∀ type, graph.HasType type → (∀ other ∈ graph.referencedTypes type, graph.HasType other) ∧
    larger.referencedTypes type = graph.referencedTypes type
  render : ∀ type, graph.HasType type → ∀ format : Format, format.render larger type = format.render graph type
  signature : ∀ type, graph.HasType type → larger.signature type = graph.signature type

theorem Closed.confines (hclosed : s.Closed) (hsettled : s.RedirectsSettled) (properties : Array Property)
    (types : Array ObjectType) : Confines s.graph (s.graph.extended properties types) := by
  have hendures := Graph.enduresIn_extended s.graph properties types
  have hagree := hclosed.agreeOn_larger hsettled hendures
  refine ⟨fun type htype => ⟨hclosed.canonical htype, (hagree.canonical type htype).symm⟩,
    fun type htype => (hagree.type htype).symm,
    fun type htype mode bound value => (hagree.run_eq mode bound htype value).symm,
    fun type htype mode value => (hagree.evaluate_eq mode htype value).symm,
    fun id hid mode value => (hagree.evaluateProperty_eq mode hid value).symm, fun type htype => ⟨?_, ?_⟩,
    fun type htype format => (hagree.render_eq (.refl _) hendures.grows htype format).symm,
    fun type htype => congrArg Blake3.hex (hagree.canonicalText_eq (.refl _) hendures.grows htype).symm⟩
  · exact hagree.hasType_referencedTypes htype
  · exact (hagree.referencedTypes_eq (.refl _) hendures.grows htype).symm

/-- **No id dangles**, after all calls, whichever of them failed, and at every write that comes next.  So whatever lies
behind the arenas, no evaluation, no rendering and no other lookup that starts from the graph's own types and properties
depends on it. -/
theorem intact_performAll (config : Config) (calls : List Call) :
    (∀ m, Writes config.settings.implicitNull (performAll config calls) m → m.Intact) ∧
    ∀ properties types, Confines (performAll config calls).graph
      ((performAll config calls).graph.extended properties types) := by
  have hintact := intact_performs config calls
  exact ⟨fun m hm => hm.intact hintact, hintact.toClosed.confines (collapsed_performAll config calls).settled⟩

/-- A call has failed half-way.  The root of what it left makes the same of a value if a property comes after its last
one. -/
theorem intact_unknownType : (performAll oneName unknownTypeCalls).Intact ∧
    ((performAll oneName unknownTypeCalls).graph.extended #[default] #[]).evaluate .collectAll ⟨0⟩ (.object []) =
      (performAll oneName unknownTypeCalls).graph.evaluate .collectAll ⟨0⟩ (.object []) := by
  obtain ⟨hintact, hconfines⟩ := intact_performAll oneName unknownTypeCalls
  have hroot : (performAll oneName unknownTypeCalls).graph.HasType ⟨0⟩ := by
    unfold Graph.HasType
    decide +kernel
  exact ⟨hintact _ .refl, (hconfines #[default] #[]).evaluate ⟨0⟩ hroot .collectAll _⟩

end Session
end SchemaTypes
