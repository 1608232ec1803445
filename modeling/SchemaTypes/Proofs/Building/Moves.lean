import SchemaTypes.Proofs.Building.Writes
/-!
# What a call leaves alone

A call writes in place.  It relaxes properties, fills placeholders in, adds to types and redirects them.  All of that
hits what the call itself has added: each of its writes (`Session.Move`) names the session it began in, its origin,
and what was there at the origin stays as it is (`Session.Since`).  Definitions are part of this.  One that is in
progress at the origin remains so, and only new placeholders come to wait for it; otherwise a later call could fill
in a placeholder that an earlier one has handed out.

Whether the call succeeds or fails makes no difference here.
-/
namespace SchemaTypes

namespace Graph

/-- Everything that has been handed out is the same in a later graph. -/
structure EnduresIn (graph later : Graph) : Prop where
  grows : graph.Grows later
  property : ∀ id, graph.HasProperty id → later.property id = graph.property id
  entry : ∀ id, graph.HasType id → later.entry id = graph.entry id

theorem EnduresIn.refl (graph : Graph) : graph.EnduresIn graph := ⟨.refl graph, fun _ _ => rfl, fun _ _ => rfl⟩

theorem EnduresIn.trans {graph later third : Graph} (h : graph.EnduresIn later) (h' : later.EnduresIn third) :
    graph.EnduresIn third where
  grows := h.grows.trans h'.grows
  property id hid := (h'.property id (hid.grows h.grows)).trans (h.property id hid)
  entry id hid := (h'.entry id (hid.grows h.grows)).trans (h.entry id hid)

end Graph

namespace Session

/-- A change of a type that leaves alone what it is known by and whether it is a root. -/
structure KeepsStanding (f : ObjectType → ObjectType) : Prop extends KeepsIdentity f where
  isRoot : ∀ type, (f type).isRoot = type.isRoot

/-- One write of a call that began at the origin. -/
inductive Move (origin : Session) : Session → Session → Prop
  | notify {s : Session} {notice : Notice} : notice.isWarning = true →
    Move origin s { s with notices := s.notices ++ [notice] }
  | reserve {s : Session} (namespaceName className : String) (isRoot : Bool) :
    Move origin s (s.withGraph (s.graph.reserve namespaceName className isRoot).2)
  | change {s : Session} {id : TypeId} {f : ObjectType → ObjectType} : ¬ origin.graph.HasType id →
    KeepsStanding f → Move origin s (s.withGraph (s.graph.modifyType id f))
  | finish {s s' : Session} {config : Config} {id target : TypeId} : ¬ origin.graph.HasType id →
    s.Unfinished id → (Building.finish id).Runs config s target s' → Move origin s s'
  | add {s : Session} (property : Property) : Move origin s (s.withGraph (s.graph.addProperty property).2)
  | amend {s : Session} {id : PropertyId} (f : Property → Property) : ¬ origin.graph.HasProperty id →
    Move origin s (s.withGraph (s.graph.modifyProperty id f))
  | define {s : Session} {key : DefinitionKey} (definition : Definition) :
    (∀ type, ¬ origin.InProgress key type) → Move origin s (s.setDefinition key definition)
  | wait {s : Session} {key : DefinitionKey} {waiting : List PropertyId} {id : PropertyId} :
    s.definition? key = some (.inProgress none waiting) → ¬ origin.graph.HasProperty id →
    Move origin s (s.setDefinition key (.inProgress none (waiting ++ [id])))

abbrev Moves (origin : Session) : Session → Session → Prop := Relation.ReflTransGen (Move origin)

/-- What was there at the origin is still the same.  What is in progress may have got placeholders since. -/
structure Since (origin s : Session) : Prop where
  endures : origin.graph.EnduresIn s.graph
  waits : ∀ key type waiting, origin.definition? key = some (.inProgress type waiting) →
    ∃ late, s.definition? key = some (.inProgress type (waiting ++ late)) ∧
      ∀ id ∈ late, ¬ origin.graph.HasProperty id

variable {origin s s' : Session}

theorem Since.refl (s : Session) : Since s s := by
  refine ⟨.refl _, fun key type waiting hpending => ⟨[], ?_, fun _ hid => absurd hid List.not_mem_nil⟩⟩
  rw [List.append_nil]
  exact hpending

/-- What the origin has in progress is in progress. -/
theorem Since.inProgress (h : Since origin s) {key : DefinitionKey} {type : Option TypeId}
    (hpending : origin.InProgress key type) : s.InProgress key type := by
  obtain ⟨waiting, hpending⟩ := hpending
  obtain ⟨late, hlater, _⟩ := h.waits key type waiting hpending
  exact ⟨_, hlater⟩

/-- A definition nobody has begun was not in progress at the origin either. -/
theorem Since.not_inProgress (h : Since origin s) {key : DefinitionKey} (hnone : s.definition? key = none)
    (type : Option TypeId) : ¬ origin.InProgress key type := by
  intro hpending
  obtain ⟨waiting, hsome⟩ := h.inProgress hpending
  rw [hnone] at hsome
  cases hsome

/-- The rest of a session does not matter to what endures. -/
theorem Since.withDefinitions (h : Since origin s) (hgraph : s'.graph = s.graph)
    (hdefinitions : ∀ key type, origin.InProgress key type → s'.definition? key = s.definition? key) :
    Since origin s' := by
  refine ⟨hgraph ▸ h.endures, fun key type waiting hpending => ?_⟩
  rw [hdefinitions key type ⟨waiting, hpending⟩]
  exact h.waits key type waiting hpending

theorem Since.withGraph (h : Since origin s) {graph : Graph} (hgraph : origin.graph.EnduresIn graph) :
    Since origin (s.withGraph graph) := ⟨hgraph, h.waits⟩

/-! ## What each write leaves alone -/

theorem enduresIn_addProperty {graph later : Graph} (h : graph.EnduresIn later) (property : Property) :
    graph.EnduresIn (later.addProperty property).2 := by
  refine ⟨h.grows.trans (grows_addProperty _ _), fun id hid => ?_, h.entry⟩
  rw [property_addProperty_eq, if_neg (Nat.ne_of_lt (hid.grows h.grows))]
  exact h.property id hid

theorem enduresIn_modifyProperty {graph later : Graph} (h : graph.EnduresIn later) {id : PropertyId}
    (hnew : ¬ graph.HasProperty id) (f : Property → Property) :
    graph.EnduresIn (later.modifyProperty id f) := by
  refine ⟨h.grows.trans (grows_modifyProperty _ _ _), fun other hother => ?_, h.entry⟩
  have hne : other ≠ id := fun heq => hnew (heq ▸ hother)
  rw [Graph.property_modifyProperty_of_ne _ _ hne]
  exact h.property other hother

theorem enduresIn_reserve {graph later : Graph} (h : graph.EnduresIn later) (namespaceName className : String)
    (isRoot : Bool) : graph.EnduresIn (later.reserve namespaceName className isRoot).2 := by
  refine ⟨h.grows.trans (grows_reserve _ _ _ _), h.property, fun id hid => ?_⟩
  rw [entry_reserve_of_lt _ _ _ _ (hid.grows h.grows)]
  exact h.entry id hid

theorem enduresIn_modifyType {graph later : Graph} (h : graph.EnduresIn later) {id : TypeId}
    (hnew : ¬ graph.HasType id) (f : ObjectType → ObjectType) : graph.EnduresIn (later.modifyType id f) := by
  refine ⟨h.grows.trans (grows_modifyType _ _ _), h.property, fun other hother => ?_⟩
  have hne : other.index ≠ id.index := fun heq => hnew (by unfold Graph.HasType at *; omega)
  rw [entry_modifyType_of_ne _ _ hne]
  exact h.entry other hother

theorem Move.since (h : Move origin s s') (hs : Since origin s) : Since origin s' := by
  cases h with
  | notify => exact ⟨hs.endures, hs.waits⟩
  | reserve => exact hs.withGraph (enduresIn_reserve hs.endures _ _ _)
  | change hnew => exact hs.withGraph (enduresIn_modifyType hs.endures hnew _)
  | finish hnew _ hrun =>
    obtain ⟨_, _, _, hdefinitions, hgraph⟩ := runs_finish hrun
    refine ⟨hgraph ▸ enduresIn_modifyType hs.endures hnew _, ?_⟩
    unfold definition?
    rw [hdefinitions]
    exact hs.waits
  | add => exact hs.withGraph (enduresIn_addProperty hs.endures _)
  | amend f hnew => exact hs.withGraph (enduresIn_modifyProperty hs.endures hnew f)
  | @define key definition hbegun =>
    refine hs.withDefinitions rfl fun other type hpending => ?_
    rw [definition?_setDefinition, if_neg]
    rintro rfl
    exact hbegun type hpending
  | @wait key waiting id hwaiting hnew =>
    refine ⟨hs.endures, fun other type before hpending => ?_⟩
    obtain ⟨late, hlater, hlate⟩ := hs.waits other type before hpending
    rw [definition?_setDefinition]
    split
    · rename_i heq
      subst heq
      rw [hwaiting] at hlater
      cases hlater
      refine ⟨late ++ [id], by rw [List.append_assoc], fun x hx => ?_⟩
      rcases List.mem_append.1 hx with hx | hx
      · exact hlate x hx
      · exact List.mem_singleton.1 hx ▸ hnew
    · exact ⟨late, hlater, hlate⟩

theorem Moves.keeps {P : Session → Prop} (hmove : ∀ m m', Move origin m m' → P m → P m')
    (h : Moves origin s s') (hs : P s) : P s' := by
  induction h with
  | refl => exact hs
  | tail _ hlast ih => exact hmove _ _ hlast ih

/-- **Writes leave alone what was there at the origin.** -/
theorem Moves.since (h : Moves origin s s') (hs : Since origin s) : Since origin s' :=
  h.keeps (P := Since origin) (fun _ _ hmove hm => hmove.since hm) hs

/-- What was there at an earlier origin was there at a later one. -/
theorem Move.rebase {earlier : Session} (hg : earlier.graph.Grows origin.graph)
    (hpending : ∀ key type, earlier.InProgress key type → origin.InProgress key type) (h : Move origin s s') :
    Move earlier s s' := by
  cases h with
  | notify hnotice => exact .notify hnotice
  | reserve => exact .reserve _ _ _
  | change hnew hf => exact .change (fun hid => hnew (hid.grows hg)) hf
  | finish hnew hunfinished hrun => exact .finish (fun hid => hnew (hid.grows hg)) hunfinished hrun
  | add property => exact .add property
  | amend f hnew => exact .amend f fun hid => hnew (hid.grows hg)
  | define definition hbegun => exact .define definition fun type h => hbegun type (hpending _ type h)
  | wait hwaiting hnew => exact .wait hwaiting fun hid => hnew (hid.grows hg)

end Session
end SchemaTypes
