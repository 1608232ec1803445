import SchemaTypes.Proofs.Building.Placeholders
import SchemaTypes.Proofs.Types.Ids
/-!
# What a run writes, ended or not

Steps tell what a successful run does.  A fault ends a run anywhere, also between two steps, and the session
keeps what was written so far.  So here a run is taken apart further, into single writes (`Session.Write`), and
whatever ends a run, it has made writes and nothing else.

Each write states what it is given: ids that have been handed out, and properties that are in step.  Hence two
invariants of all sessions, whatever calls failed on the way: no id dangles (`Write.closed`), and every property is
in step (`Write.inStep`).
-/
namespace SchemaTypes
namespace Session

/-- The type is reserved, and nobody has finished it. -/
structure Unfinished (session : Session) (id : TypeId) : Prop where
  hasType : session.graph.HasType id
  signature : (session.graph.entry id).signature = none

def KnowsDefinition (session : Session) : Definition → Prop
  | .inProgress type waiting =>
    (∀ id, type = some id → session.graph.HasType id) ∧ ∀ id ∈ waiting, session.graph.HasProperty id
  | .built property => session.graph.HasProperty property

/-- One write to a session.  `allowed` tells whether null settles optional values. -/
inductive Write (allowed : Bool) : Session → Session → Prop
  | notify {s : Session} (notice : Notice) : Write allowed s { s with notices := s.notices ++ [notice] }
  | reserve {s : Session} (namespaceName className : String) (isRoot : Bool) :
    Write allowed s (s.withGraph (s.graph.reserve namespaceName className isRoot).2)
  | describe {s : Session} (id : TypeId) (text : String) :
    Write allowed s (s.withGraph (s.graph.modifyType id fun type => { type with description := some text }))
  | enlist {s : Session} (id : TypeId) {property : PropertyId} : s.graph.HasProperty property →
    Write allowed s (s.withGraph (s.graph.modifyType id fun type =>
      { type with properties := type.properties ++ [property] }))
  | demand {s : Session} (id : TypeId) {check : Check} : s.graph.KnowsCheck check →
    Write allowed s (s.withGraph (s.graph.modifyType id fun type =>
      { type with validators := type.validators.addCheck check }))
  | finish {s s' : Session} {config : Config} {id target : TypeId} : s.graph.HasType id →
    (Building.finish id).Runs config s target s' → Write allowed s s'
  | add {s : Session} {property : Property} : s.graph.Knows property → property.InStep allowed →
    Write allowed s (s.withGraph (s.graph.addProperty property).2)
  | relax {s : Session} {id : PropertyId} : (s.graph.property id).required = true →
    Write allowed s (s.withGraph (s.graph.modifyProperty id Property.relax))
  | caption {s : Session} (id : PropertyId) (text : String) :
    Write allowed s (s.withGraph (s.graph.modifyProperty id fun property =>
      { property with description := some text }))
  | define {s : Session} (key : DefinitionKey) {definition : Definition} : s.KnowsDefinition definition →
    Write allowed s (s.setDefinition key definition)
  | bind {s : Session} (definition placeholder : PropertyId) :
    Write allowed s (s.bindOne allowed definition placeholder)

abbrev Writes (allowed : Bool) : Session → Session → Prop := Relation.ReflTransGen (Write allowed)

/-- No id dangles. -/
structure Closed (session : Session) : Prop where
  properties : ∀ id, session.graph.Knows (session.graph.property id)
  types : ∀ id, session.graph.KnowsType (session.graph.entry id)
  signatures : ∀ text id, (text, id) ∈ session.signatures → session.graph.HasType id
  definitions : ∀ key definition, session.definition? key = some definition → session.KnowsDefinition definition

variable {allowed : Bool} {s s' : Session}

/-- What every write keeps, a run keeps. -/
theorem Writes.keeps {P : Session → Prop} (hwrite : ∀ m m', Write allowed m m' → P m → P m')
    (h : Writes allowed s s') (hs : P s) : P s' := by
  induction h with
  | refl => exact hs
  | tail _ hlast ih => exact hwrite _ _ hlast ih

/-! ## Lookups after a write -/

theorem entry_modifyType_eq (graph : Graph) (id other : TypeId) (f : ObjectType → ObjectType) :
    (graph.modifyType id f).entry other =
      if other.index = id.index ∧ other.index < graph.types.size then f (graph.entry other)
      else graph.entry other := by
  split
  · rename_i h
    obtain rfl : other = id := by cases other; cases id; exact congrArg _ h.1
    exact entry_modifyType graph f h.2
  · rename_i h
    by_cases heq : other.index = id.index
    · have hge : graph.types.size ≤ other.index := Nat.le_of_not_lt fun hlt => h ⟨heq, hlt⟩
      rw [entry_of_le hge, entry_of_le]
      rw [size_modifyType]
      exact hge
    · exact entry_modifyType_of_ne graph f heq

theorem entry_reserve_eq (graph : Graph) (namespaceName className : String) (isRoot : Bool) (id : TypeId) :
    (graph.reserve namespaceName className isRoot).2.entry id =
      if id.index = graph.types.size then { name := graph.freeName namespaceName className, isRoot }
      else graph.entry id := by
  simp only [Graph.reserve, Graph.entry, Array.getD_eq_getD_getElem?, Array.getElem?_push]
  split
  · rfl
  · rfl

theorem grows_modifyType (graph : Graph) (id : TypeId) (f : ObjectType → ObjectType) :
    graph.Grows (graph.modifyType id f) :=
  ⟨Nat.le_refl _, Nat.le_of_eq (size_modifyType graph id f).symm⟩

theorem grows_modifyProperty (graph : Graph) (id : PropertyId) (f : Property → Property) :
    graph.Grows (graph.modifyProperty id f) :=
  ⟨Nat.le_of_eq (size_modifyProperty graph id f).symm, Nat.le_refl _⟩

theorem grows_addProperty (graph : Graph) (property : Property) : graph.Grows (graph.addProperty property).2 :=
  ⟨size_le_addProperty graph property, Nat.le_refl _⟩

theorem grows_reserve (graph : Graph) (namespaceName className : String) (isRoot : Bool) :
    graph.Grows (graph.reserve namespaceName className isRoot).2 :=
  ⟨Nat.le_refl _, by simp [Graph.reserve]⟩

theorem hasProperty_addProperty (graph : Graph) (property : Property) :
    (graph.addProperty property).2.HasProperty (graph.addProperty property).1 := by
  simp [Graph.addProperty, Graph.HasProperty]

/-! ## What no write changes -/

theorem Write.documents (h : Write allowed s s') : s'.documents = s.documents := by
  cases h with
  | finish _ hrun =>
    obtain ⟨_, _, hdocuments, _, _⟩ := runs_finish hrun
    exact hdocuments
  | _ => rfl

theorem Write.grows (h : Write allowed s s') : s.graph.Grows s'.graph := by
  cases h with
  | reserve => exact grows_reserve _ _ _ _
  | describe => exact grows_modifyType _ _ _
  | enlist => exact grows_modifyType _ _ _
  | demand => exact grows_modifyType _ _ _
  | finish _ hrun =>
    obtain ⟨_, _, _, _, hgraph⟩ := runs_finish hrun
    rw [hgraph]
    exact grows_modifyType _ _ _
  | add => exact grows_addProperty _ _
  | relax => exact grows_modifyProperty _ _ _
  | caption => exact grows_modifyProperty _ _ _
  | bind => exact grows_modifyProperty _ _ _
  | notify => exact .refl _
  | define => exact .refl _

theorem Writes.documents (h : Writes allowed s s') : s'.documents = s.documents :=
  h.keeps (P := fun m => m.documents = s.documents) (fun _ _ hwrite hm => hwrite.documents.trans hm) rfl

theorem Writes.grows (h : Writes allowed s s') : s.graph.Grows s'.graph :=
  h.keeps (P := fun m => s.graph.Grows m.graph) (fun _ _ hwrite hm => hm.trans hwrite.grows) (.refl _)

/-! ## No id dangles -/

theorem KnowsDefinition.grows {definition : Definition} (h : s.KnowsDefinition definition)
    (hg : s.graph.Grows s'.graph) : s'.KnowsDefinition definition := by
  cases definition with
  | inProgress type waiting =>
    exact ⟨fun id hid => (h.1 id hid).grows hg, fun id hid => (h.2 id hid).grows hg⟩
  | built property => exact Graph.HasProperty.grows h hg

theorem knows_default (graph : Graph) : graph.Knows default := Graph.knows_of_empty rfl rfl rfl

theorem closed_initial : Closed {} := by
  refine ⟨fun id => ?_, fun id => ?_, fun _ _ hmem => absurd hmem List.not_mem_nil, fun _ _ hsome => nomatch hsome⟩
  · exact knows_default _
  · exact ⟨fun _ hid => absurd hid List.not_mem_nil, fun _ hv => absurd hv List.not_mem_nil, fun _ hid => nomatch hid⟩

/-- A property that is added is nobody's yet: what was there knows older ones only. -/
theorem Closed.unclaimed_addProperty (h : s.Closed) {property : Property} (hknown : s.graph.Knows property) :
    (s.graph.addProperty property).2.Unclaimed (s.graph.addProperty property).1 := by
  have hfresh : ¬ s.graph.HasProperty (s.graph.addProperty property).1 := Nat.lt_irrefl _
  refine ⟨fun type hid => hfresh ((h.types type).properties _ hid),
    fun type v hv hid => hfresh (((h.types type).checks v hv).children _ hid), fun other v hv hid => hfresh ?_⟩
  rw [property_addProperty_eq] at hv
  split at hv
  · exact (hknown.checks v hv).children _ hid
  · exact ((h.properties other).checks v hv).children _ hid

/-- Writes of one property or type: the others are known as before, and so is all else. -/
theorem Closed.of_graph (h : s.Closed) {graph : Graph} (hg : s.graph.Grows graph)
    (hproperties : ∀ id, graph.Knows (graph.property id)) (htypes : ∀ id, graph.KnowsType (graph.entry id)) :
    (s.withGraph graph).Closed :=
  ⟨hproperties, htypes, fun text id hmem => (h.signatures text id hmem).grows hg,
    fun key definition hsome => (h.definitions key definition hsome).grows hg⟩

theorem Closed.modifyProperty (h : s.Closed) (id : PropertyId) {f : Property → Property}
    (hf : ∀ property, s.graph.Knows property → s.graph.Knows (f property)) :
    (s.withGraph (s.graph.modifyProperty id f)).Closed := by
  have hg := grows_modifyProperty s.graph id f
  refine h.of_graph hg (fun other => ?_) fun other => (h.types other).grows hg
  rw [property_modifyProperty_eq]
  split
  · exact (hf _ (h.properties other)).grows hg
  · exact (h.properties other).grows hg

theorem Closed.modifyType (h : s.Closed) (id : TypeId) {f : ObjectType → ObjectType}
    (hf : ∀ type, s.graph.KnowsType type → s.graph.KnowsType (f type)) :
    (s.withGraph (s.graph.modifyType id f)).Closed := by
  have hg := grows_modifyType s.graph id f
  refine h.of_graph hg (fun other => (h.properties other).grows hg) fun other => ?_
  rw [entry_modifyType_eq]
  split
  · exact (hf _ (h.types other)).grows hg
  · exact (h.types other).grows hg

theorem Closed.add (h : s.Closed) {property : Property} (hknown : s.graph.Knows property) :
    (s.withGraph (s.graph.addProperty property).2).Closed := by
  have hg := grows_addProperty s.graph property
  refine h.of_graph hg (fun id => ?_) fun id => (h.types id).grows hg
  rw [property_addProperty_eq]
  split
  · exact hknown.grows hg
  · exact (h.properties id).grows hg

theorem Closed.reserve (h : s.Closed) (namespaceName className : String) (isRoot : Bool) :
    (s.withGraph (s.graph.reserve namespaceName className isRoot).2).Closed := by
  have hg := grows_reserve s.graph namespaceName className isRoot
  refine h.of_graph hg (fun id => (h.properties id).grows hg) fun id => ?_
  rw [entry_reserve_eq]
  split
  · exact ⟨fun _ hid => absurd hid List.not_mem_nil, fun _ hv => absurd hv List.not_mem_nil, fun _ hid => nomatch hid⟩
  · exact (h.types id).grows hg

theorem Closed.canonical (h : s.Closed) {id : TypeId} (hid : s.graph.HasType id) :
    s.graph.HasType (s.graph.canonical id) := Graph.hasType_follow h.types _ hid

theorem Closed.finish (h : s.Closed) {config : Config} {id target : TypeId} (hid : s.graph.HasType id)
    (hrun : (Building.finish id).Runs config s target s') : s'.Closed := by
  obtain ⟨redirect, hfinishes, _, hdefinitions, hgraph⟩ := runs_finish hrun
  have hg : s.graph.Grows s'.graph := hgraph ▸ grows_modifyType _ _ _
  have hredirect : ∀ other, redirect = some other → s.graph.HasType other := by
    intro other hother
    generalize s'.signatures = signatures at hfinishes
    cases hfinishes with
    | kept => cases hother
    | first => cases hother
    | duplicate hexisting =>
      cases hother
      exact h.canonical (h.signatures _ _ (Building.mem_of_lookup hexisting))
  have hchanged := h.modifyType id (f := fun entry => { entry with
      signature := some (s.graph.signature id), redirect := redirect <|> entry.redirect }) fun type htype => by
    refine ⟨htype.properties, htype.checks, fun other hother => ?_⟩
    cases hsome : redirect with
    | none =>
      rw [hsome] at hother
      exact htype.redirect other hother
    | some found =>
      rw [hsome] at hother
      cases hother
      exact hredirect _ hsome
  refine ⟨fun other => ?_, fun other => ?_, fun text other hmem => ?_, fun key definition hsome => ?_⟩
  · rw [hgraph]
    exact hchanged.properties other
  · rw [hgraph]
    exact hchanged.types other
  · generalize s'.signatures = signatures at hfinishes hmem
    cases hfinishes with
    | kept => exact (h.signatures text other hmem).grows hg
    | duplicate => exact (h.signatures text other hmem).grows hg
    | first =>
      rcases List.mem_append.1 hmem with hmem | hmem
      · exact (h.signatures text other hmem).grows hg
      · obtain ⟨_, rfl⟩ := Prod.mk.inj (List.mem_singleton.1 hmem)
        exact hid.grows hg
  · have hsame : s'.definition? key = s.definition? key := by
      unfold definition?
      rw [hdefinitions]
    exact (h.definitions key definition (hsame ▸ hsome)).grows hg

/-- **No write leaves an id that dangles.** -/
theorem Write.closed (h : Write allowed s s') (hs : s.Closed) : s'.Closed := by
  cases h with
  | notify => exact ⟨hs.properties, hs.types, hs.signatures, hs.definitions⟩
  | reserve => exact hs.reserve _ _ _
  | describe => exact hs.modifyType _ fun type htype => ⟨htype.properties, htype.checks, htype.redirect⟩
  | enlist _ hproperty => exact hs.modifyType _ fun type htype => htype.enlist hproperty
  | demand _ hcheck => exact hs.modifyType _ fun type htype => htype.demand hcheck
  | finish hid hrun => exact hs.finish hid hrun
  | add hknown => exact hs.add hknown
  | relax => exact hs.modifyProperty _ fun property hproperty => hproperty.relax
  | caption =>
    exact hs.modifyProperty _ fun property hproperty => ⟨hproperty.checks, hproperty.nested, hproperty.decorators⟩
  | define key hknown =>
    refine ⟨hs.properties, hs.types, hs.signatures, fun other definition hsome => ?_⟩
    rw [definition?_setDefinition] at hsome
    split at hsome
    · cases hsome
      exact hknown
    · exact hs.definitions other definition hsome
  | bind definition placeholder =>
    exact hs.modifyProperty _ fun property _ => (hs.properties definition).bound property allowed

/-! ## Every property is in step -/

theorem inStep_modifyProperty {id : PropertyId} {f : Property → Property}
    (hs : ∀ other, (s.graph.property other).InStep allowed)
    (hf : (s.graph.property id).InStep allowed → (f (s.graph.property id)).InStep allowed) (other : PropertyId) :
    ((s.graph.modifyProperty id f).property other).InStep allowed := by
  rw [property_modifyProperty_eq]
  split
  · rename_i h
    obtain rfl : other = id := by cases other; cases id; exact congrArg _ h.1
    exact hf (hs other)
  · exact hs other

/-- **Every write leaves every property in step.** -/
theorem Write.inStep (h : Write allowed s s') (hs : ∀ id, (s.graph.property id).InStep allowed) (id : PropertyId) :
    (s'.graph.property id).InStep allowed := by
  cases h with
  | finish _ hrun =>
    obtain ⟨_, _, _, _, hgraph⟩ := runs_finish hrun
    rw [hgraph]
    exact hs id
  | add _ hstep =>
    change ((s.graph.addProperty _).2.property id).InStep allowed
    rw [property_addProperty_eq]
    split
    · exact hstep
    · exact hs id
  | relax hrequired =>
    exact inStep_modifyProperty hs (fun h => h.relax (Property.settlesNull_of_required hrequired)) id
  | caption => exact inStep_modifyProperty hs (fun h => h) id
  | bind definition placeholder =>
    exact inStep_modifyProperty hs (fun _ => Building.inStep_bound (hs definition) _) id
  | _ => exact hs id

theorem Writes.closed (h : Writes allowed s s') (hs : s.Closed) : s'.Closed :=
  h.keeps (P := Closed) (fun _ _ hwrite hm => hwrite.closed hm) hs

theorem Writes.inStep (h : Writes allowed s s') (hs : ∀ id, (s.graph.property id).InStep allowed) (id : PropertyId) :
    (s'.graph.property id).InStep allowed :=
  h.keeps (P := fun m => ∀ id, (m.graph.property id).InStep allowed) (fun _ _ hwrite hm => hwrite.inStep hm) hs id

end Session
end SchemaTypes
