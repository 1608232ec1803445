import SchemaTypes.Proofs.Building.Arrangement
import SchemaTypes.Proofs.Building.Calls
import SchemaTypes.Proofs.Building.Confinement
import SchemaTypes.Proofs.Building.Tuples
/-!
# Every property of a graph is arranged

Whatever calls leave, failed ones included, the checks of all properties are arranged, those by place among them in a row.
What types ask for is spelled in nodes and makes no instances, and what types list is not relaxed
(`Session.arranged_performAll`).

The last one is a matter of when.  What a builder answers is loose at first: it has just been added, and no type lists it
yet.  Then it is either listed or relaxed, and at once, so that it is never both.  Later writes to a listed property fill
it in, which leaves that mark alone.
-/
namespace SchemaTypes

open Building

namespace Session

/-- What holds of the properties and types of a session, between any two writes. -/
structure Arranged (config : Config) (s : Session) : Prop where
  properties : ∀ id, (s.graph.property id).Arranged config
  types : ∀ id, ∀ v ∈ (s.graph.entry id).validators.toList, config.Admits v.check ∧ v.check.isSpelled = true
  listed : ∀ type, ∀ id ∈ (s.graph.entry type).properties,
    s.graph.HasProperty id ∧ (s.graph.property id).relaxed = false
  parted : ∀ id, (s.graph.property id).Parted
  bare : ∀ id, ∀ v ∈ (s.graph.entry id).validators.toList, v.check.types = []

/-- The property is there, and it has been neither relaxed nor listed. -/
structure Loose (s : Session) (id : PropertyId) : Prop where
  hasProperty : s.graph.HasProperty id
  relaxed : (s.graph.property id).relaxed = false
  unlisted : ∀ type, id ∉ (s.graph.entry type).properties

/-- All is arranged, and these properties are there and have not been relaxed. -/
structure Sparing (config : Config) (sources : List PropertyId) (s : Session) : Prop where
  arranged : s.Arranged config
  unrelaxed : ∀ id ∈ sources, s.graph.HasProperty id ∧ (s.graph.property id).relaxed = false

variable {config : Config} {s : Session} {id : PropertyId} {type : TypeId} {property : Property}
  {f : Property → Property} {change : ObjectType → ObjectType}

theorem arranged_initial (config : Config) : Arranged config {} :=
  ⟨fun _ => Property.arranged_of_empty rfl, fun _ _ hv => absurd hv List.not_mem_nil,
    fun _ _ hid => absurd hid List.not_mem_nil, fun _ => ⟨[], Property.divided_of_empty rfl⟩,
    fun _ _ hv => absurd hv List.not_mem_nil⟩

/-! ## Writes -/

theorem Arranged.of_graph (h : s.Arranged config) {s' : Session} (hgraph : s'.graph = s.graph) :
    s'.Arranged config :=
  ⟨hgraph ▸ h.properties, hgraph ▸ h.types, hgraph ▸ h.listed, hgraph ▸ h.parted, hgraph ▸ h.bare⟩

/-- What is added is loose. -/
theorem Arranged.addProperty (h : s.Arranged config) (hproperty : property.Arranged config)
    (hparted : property.Parted) (hrelaxed : property.relaxed = false) : (s.withGraph (s.graph.addProperty property).2).Arranged config ∧
      (s.withGraph (s.graph.addProperty property).2).Loose (s.graph.addProperty property).1 := by
  have hgrows : s.graph.Grows (s.graph.addProperty property).2 := (precedes_addProperty s property).recalls.grows
  refine ⟨⟨fun id => ?_, h.types, fun type id hid => ?_, fun id => ?_, h.bare⟩, hasProperty_addProperty _ _, ?_,
    fun type hmem => ?_⟩
  · change ((s.graph.addProperty property).2.property id).Arranged config
    rw [property_addProperty_eq]
    split
    · exact hproperty
    · exact h.properties id
  · obtain ⟨hthere, hunrelaxed⟩ := h.listed type id hid
    exact ⟨hthere.grows hgrows, (Graph.property_addProperty_of_lt s.graph property hthere) ▸ hunrelaxed⟩
  · change ((s.graph.addProperty property).2.property id).Parted
    rw [property_addProperty_eq]
    split
    · exact hparted
    · exact h.parted id
  · exact (congrArg Property.relaxed (Graph.property_addProperty _ _)).trans hrelaxed
  · exact Nat.lt_irrefl _ (h.listed type _ hmem).1

/-- A property may change as it likes while it is not listed, and keeps its mark afterwards. -/
theorem Arranged.modifyProperty (h : s.Arranged config)
    (hf : (s.graph.property id).Arranged config → (f (s.graph.property id)).Arranged config)
    (hparted : (s.graph.property id).Parted → (f (s.graph.property id)).Parted)
    (hrelaxed : (∀ type, id ∉ (s.graph.entry type).properties) ∨
      (f (s.graph.property id)).relaxed = (s.graph.property id).relaxed) :
    (s.withGraph (s.graph.modifyProperty id f)).Arranged config := by
  refine ⟨fun other => ?_, h.types, fun type other hother => ?_, fun other => ?_, h.bare⟩
  · change ((s.graph.modifyProperty id f).property other).Arranged config
    rw [property_modifyProperty_eq]
    split
    · rename_i heq
      obtain rfl : other = id := by cases other; cases id; exact congrArg _ heq.1
      exact hf (h.properties other)
    · exact h.properties other
  · obtain ⟨hthere, hunrelaxed⟩ := h.listed type other hother
    refine ⟨hthere.grows (grows_modifyProperty _ _ _), ?_⟩
    change ((s.graph.modifyProperty id f).property other).relaxed = false
    rw [property_modifyProperty_eq]
    split
    · rename_i heq
      obtain rfl : other = id := by cases other; cases id; exact congrArg _ heq.1
      exact (hrelaxed.resolve_left fun hnot => hnot type hother).trans hunrelaxed
    · exact hunrelaxed
  · change ((s.graph.modifyProperty id f).property other).Parted
    rw [property_modifyProperty_eq]
    split
    · rename_i heq
      obtain rfl : other = id := by cases other; cases id; exact congrArg _ heq.1
      exact hparted (h.parted other)
    · exact h.parted other

theorem Arranged.modifyType (h : s.Arranged config)
    (hvalidators : ∀ entry, ∀ v ∈ (change entry).validators.toList, v ∈ entry.validators.toList ∨
      (config.Admits v.check ∧ v.check.isSpelled = true) ∧ v.check.types = [])
    (hproperties : ∀ entry, ∀ id ∈ (change entry).properties, id ∈ entry.properties ∨
      s.graph.HasProperty id ∧ (s.graph.property id).relaxed = false) :
    (s.withGraph (s.graph.modifyType type change)).Arranged config := by
  have hheld : ∀ other, ∀ v ∈ ((s.graph.modifyType type change).entry other).validators.toList,
      v ∈ (s.graph.entry other).validators.toList ∨
        (config.Admits v.check ∧ v.check.isSpelled = true) ∧ v.check.types = [] := by
    intro other v hv
    rw [entry_modifyType_eq] at hv
    split at hv
    · exact hvalidators _ v hv
    · exact Or.inl hv
  refine ⟨h.properties, fun other v hv => (hheld other v hv).elim (h.types other v) fun hnew => hnew.1,
    fun other id hid => ?_, h.parted, fun other v hv => (hheld other v hv).elim (h.bare other v) fun hnew => hnew.2⟩
  · change id ∈ ((s.graph.modifyType type change).entry other).properties at hid
    rw [entry_modifyType_eq] at hid
    split at hid
    · exact (hproperties _ id hid).elim (h.listed other id) fun hnew => hnew
    · exact h.listed other id hid

/-- What is loose may be listed. -/
theorem Arranged.list (h : s.Arranged config) (hid : s.Loose id) :
    (s.withGraph (s.graph.modifyType type fun entry =>
      { entry with properties := entry.properties ++ [id] })).Arranged config := by
  refine h.modifyType (fun _ v hv => Or.inl hv) fun _ other hother => ?_
  rcases List.mem_append.1 hother with hother | hother
  · exact Or.inl hother
  · exact Or.inr (List.mem_singleton.1 hother ▸ ⟨hid.hasProperty, hid.relaxed⟩)

theorem Arranged.reserve (h : s.Arranged config) (namespaceName className : String) (isRoot : Bool) :
    (s.withGraph (s.graph.reserve namespaceName className isRoot).2).Arranged config := by
  have hheld : ∀ other, ∀ v ∈ ((s.graph.reserve namespaceName className isRoot).2.entry other).validators.toList,
      v ∈ (s.graph.entry other).validators.toList := by
    intro other v hv
    rw [entry_reserve_eq] at hv
    split at hv
    · exact absurd hv List.not_mem_nil
    · exact hv
  refine ⟨h.properties, fun other v hv => h.types other v (hheld other v hv), fun other id hid => ?_, h.parted,
    fun other v hv => h.bare other v (hheld other v hv)⟩
  · change id ∈ ((s.graph.reserve namespaceName className isRoot).2.entry other).properties at hid
    rw [entry_reserve_eq] at hid
    split at hid
    · exact absurd hid List.not_mem_nil
    · exact h.listed other id hid

end Session

namespace Building

open Build

/-- Both outcomes keep all arranged. -/
abbrev Stays {α : Type} (config : Config) (x : Build α) : Prop :=
  Keeps config (Session.Arranged config) x fun _ => True

/-- Both outcomes keep all arranged, and success answers a loose property. -/
abbrev Places (config : Config) (x : Build PropertyId) : Prop :=
  Meets config (Session.Arranged config) x (fun id s => s.Arranged config ∧ s.Loose id) (Session.Arranged config)

def Arranging (config : Config) (build : Builder) : Prop :=
  ∀ (site : Site) (node : Json), Places config (build site node)

variable {α β : Type} {config : Config} {I : Session → Prop} {build : Builder} {site : Site} {scope : Scope} {node : Json}
  {property : Property} {type : TypeId} {id : PropertyId} {name keyword : String} {x : Build α}
  {f : α → Build PropertyId} {q : α → Prop}

/-! ## Rules -/

/-- What comes after looking at the graph is about that graph. -/
theorem meets_graph {P H : Session → Prop} {Q : β → Session → Prop} {f : Graph → Build β}
    (hf : ∀ t, P t → Meets config (· = t) (f t.graph) Q H) : Meets config P (Build.graph >>= f) Q H := by
  unfold Build.graph
  rw [bind_assoc]
  refine meets_get fun t ht => ?_
  rw [pure_bind]
  exact hf t ht

theorem Places.stays {x : Build PropertyId} (h : Places config x) : Stays config x :=
  Meets.imp h fun _ _ hs => ⟨hs.1, trivial⟩

/-- What is known of a result in any session is known in these. -/
theorem keeps_of_gives {r : α → Prop} (h : Keeps config I x r) (hx : Gives config x q) : Keeps config I x q :=
  (keeps_and h hx).imp fun _ ha => ha.2

theorem places_after (hx : Keeps config (Session.Arranged config) x q) (hf : ∀ a, q a → Places config (f a)) :
    Places config (x >>= f) := Meets.bind hx fun a s hs => hf a hs.2 s hs.1

/-- First something that only reads. -/
theorem places_detached (hx : Detached x) (hf : ∀ a, Places config (f a)) : Places config (x >>= f) :=
  places_after hx.keeps fun a _ => hf a

/-- First a draft that nothing is written for. -/
theorem places_drafted (hx : Detached x) (hgives : Gives config x q) (hf : ∀ a, q a → Places config (f a)) :
    Places config (x >>= f) := places_after (keeps_of_gives hx.keeps hgives) hf

theorem places_refuse {fault : SchemaFault} : Places config (refuse fault) :=
  fun _ hs => ⟨fun _ _ hrun => absurd hrun not_runs_refuse, fun halt _ hhalts => by
    obtain ⟨_, rfl⟩ := halts_throw.1 hhalts
    exact hs⟩

theorem places_malformed {reason : String} : Places config (malformed name reason) := places_refuse

theorem places_addProperty (h : property.Arranged config) (hparted : property.Parted)
    (hrelaxed : property.relaxed = false) : Places config (Build.addProperty property) := by
  refine fun s hs => ⟨fun id s' hrun => ?_, fun _ _ hhalts => absurd hhalts (Runs.not_halts (runs_addProperty.2 ⟨rfl, rfl⟩))⟩
  obtain ⟨rfl, rfl⟩ := runs_addProperty.1 hrun
  exact hs.addProperty h hparted hrelaxed

theorem stays_modify {change : Session → Session} (h : ∀ s, s.Arranged config → (change s).Arranged config) :
    Stays config (modify change) := meets_of_runs (v := ⟨⟩) (fun _ => runs_modify.2 rfl) fun s hs => ⟨h s hs, trivial⟩

theorem stays_setDefinition {key : DefinitionKey} {definition : Definition} :
    Stays config (modify fun s : Session => s.setDefinition key definition) :=
  stays_modify fun _ hs => hs.of_graph rfl

theorem stays_notify {notice : Notice} : Stays config (Build.notify notice) := stays_modify fun _ hs => hs.of_graph rfl

theorem stays_addTypeCheck {check : Check} (hadmits : config.Admits check) (hspelled : check.isSpelled = true)
    (htypes : check.types = []) : Stays config (Build.addTypeCheck type check) := by
  refine stays_modify fun s hs => hs.modifyType (fun entry v hv => ?_) fun _ _ hid => Or.inl hid
  rcases Validators.mem_toList_add.1 hv with rfl | hv
  · exact Or.inr ⟨⟨hadmits, hspelled⟩, htypes⟩
  · exact Or.inl hv

theorem stays_addPlain {check : Check} (h : check.isPlain = true) (htypes : check.types = []) :
    Stays config (Build.addTypeCheck type check) :=
  stays_addTypeCheck (Check.admits_of_isPlain h) (Check.isSpelled_of_isSingle (Check.isSingle_of_isPlain h)) htypes

theorem stays_list {x : Build PropertyId} (h : Places config x) :
    Stays config (x >>= fun id => Build.addTypeProperty type id) := by
  unfold Build.addTypeProperty Build.modifyType
  exact Meets.bind h fun id => meets_of_runs (v := ⟨⟩) (fun _ => runs_modifyGraph.2 rfl) fun s hs =>
    ⟨hs.1.list hs.2, trivial⟩

/-- Or relaxed. -/
theorem meets_relax : Meets config (fun s => s.Arranged config ∧ s.Loose id) (Build.modifyProperty id Property.relax)
    (fun _ => Session.Arranged config) (Session.Arranged config) :=
  meets_of_runs (v := ⟨⟩) (fun _ => runs_modifyGraph.2 rfl) fun _ hs =>
    hs.1.modifyProperty (fun h => h.relax) (fun ⟨block, h⟩ => ⟨block, h.relax⟩) (Or.inl hs.2.unlisted)

theorem stays_reserve {namespaceName className : String} {isRoot : Bool} :
    Stays config (Build.reserve namespaceName className isRoot) :=
  fun _ hs => ⟨fun _ _ hrun => by
    obtain ⟨rfl, rfl⟩ := runs_reserve.1 hrun
    exact ⟨hs.reserve namespaceName className isRoot, trivial⟩,
    fun _ _ hhalts => absurd hhalts (Runs.not_halts (runs_reserve.2 ⟨rfl, rfl⟩))⟩

theorem stays_finish : Stays config (finish type) := by
  refine fun s hs => ⟨fun target s' hrun => ⟨?_, trivial⟩, fun halt s' hhalts => absurd hhalts Scene.not_halts_finish⟩
  obtain ⟨_, _, _, _, hgraph⟩ := Session.runs_finish hrun
  refine Session.Arranged.of_graph (s := s.withGraph (s.graph.modifyType type fun entry => { entry with
    signature := some (s.graph.signature type), redirect := _ })) ?_ hgraph
  exact hs.modifyType (fun _ _ hv => Or.inl hv) fun _ _ hid => Or.inl hid

namespace Arranging

/-! ## Arrays -/

theorem nested (hb : Arranging config build) : Stays config (Build.nested build scope name node) := by
  unfold Build.nested
  exact Meets.bind (hb _ node) fun id => Meets.bind meets_relax fun _ => keeps_pure trivial

theorem addTuple (hb : Arranging config build) {items : List Json} :
    Stays config (addTuple build scope property items node) := by
  unfold Building.addTuple
  refine (keeps_mapM fun _ _ => hb.nested).andThen fun positions => ?_
  simp only
  split
  · exact keeps_pure trivial
  · exact keeps_pure trivial
  · exact keeps_pure trivial
  · exact hb.nested.andThen fun _ => keeps_pure trivial
  · exact keeps_malformed

theorem addItems (hb : Arranging config build) : Stays config (addItems build scope property node) := by
  unfold Building.addItems
  split
  · exact keeps_pure trivial
  · exact hb.addTuple
  · exact hb.nested.andThen fun _ => keeps_pure trivial

theorem addContains (hb : Arranging config build) : Stays config (addContains build scope property node) := by
  unfold Building.addContains
  split
  · exact keeps_pure trivial
  · exact hb.nested.andThen fun _ => keeps_pure trivial

theorem addKindChecks (hb : Arranging config build) (kind : Kind) :
    Stays config (addKindChecks build scope kind property node) := by
  have harray : Stays config (addArrayChecks build scope property node) := by
    unfold addArrayChecks
    refine detached_addCount.keeps.andThen fun _ => detached_addCount.keeps.andThen fun _ => ?_
    exact Keyword.detached_flag.keeps.andThen fun _ => hb.addItems.andThen fun _ => hb.addContains
  unfold Building.addKindChecks
  split
  · exact detached_addStringChecks.keeps
  · exact detached_addNumberChecks.keeps
  · exact detached_addNumberChecks.keeps
  · exact harray
  · exact keeps_pure trivial
  · exact keeps_pure trivial
  · exact keeps_pure trivial

theorem ofKind (hb : Arranging config build) (kind : Kind) : Stays config (ofKind build site node kind) := by
  unfold Building.ofKind
  exact detached_presentProperty.keeps.andThen fun _ => detached_allowsNull.keeps.andThen fun _ => hb.addKindChecks kind

/-! ## Compositions on a property -/

theorem branch (hb : Arranging config build) : Stays config (branch build site node) := by
  unfold Building.branch
  refine Meets.bind (hb _ node) fun id => ?_
  simp only
  split
  · exact Meets.bind meets_relax fun _ => keeps_pure trivial
  · exact meets_pure fun _ hs => ⟨hs.1, trivial⟩

theorem applyCompositions (hb : Arranging config build) :
    Stays config (applyCompositions build site node property) := by
  have hcomposition : ∀ draft combinator, Stays config (addComposition build site node draft combinator) := by
    intro draft combinator
    unfold addComposition
    refine Keyword.detached_branches?.keeps.andThen fun found => ?_
    split
    · exact keeps_pure trivial
    · refine (keeps_noteIfEmpty fun _ _ => stays_notify).andThen fun _ => ?_
      refine (keeps_mapM fun _ _ => hb.branch).andThen fun ids => ?_
      exact keeps_graph.andThen fun _ => keeps_pure trivial
  unfold Building.applyCompositions
  refine Keeps.andThen (keeps_foldlM (fun draft combinator _ => hcomposition draft combinator) trivial) fun draft => ?_
  refine (keeps_conditional? (fun _ _ => stays_notify) fun _ => hb.branch).andThen fun conditional => ?_
  simp only
  split
  · exact detached_allowsNull.keeps.andThen fun _ => keeps_pure trivial
  · exact keeps_pure trivial

/-! ## Filling a type in -/

theorem addProperties (hb : Arranging config build) : Stays config (addProperties build scope type node) := by
  unfold Building.addProperties
  refine Keyword.detached_requiredNames.keeps.andThen fun required => ?_
  refine Keyword.detached_members?.keeps.andThen fun found => ?_
  have hlist : ∀ site node, Stays config (do
      let id ← build site node
      Build.addTypeProperty type id
      pure (ForInStep.yield PUnit.unit)) := by
    intro site node
    have hlisted : Stays config (do
        let id ← build site node
        Build.addTypeProperty type id) := stays_list (hb site node)
    have hyields := hlisted.andThen fun _ => keeps_pure (a := ForInStep.yield PUnit.unit) (q := fun _ => True) trivial
    rw [bind_assoc] at hyields
    exact hyields
  simp only
  refine (keeps_forIn fun member _ => hlist _ _).andThen fun _ => ?_
  exact (keeps_forIn fun name _ => hlist _ _).andThen fun _ => keeps_pure trivial

theorem addOpenProperties (hb : Arranging config build) : Stays config (addOpenProperties build scope type node) := by
  have hpattern : ∀ before member, Stays config (addPatternProperty build scope type before member) := by
    rintro before ⟨source, inner⟩
    unfold addPatternProperty
    simp only
    refine Keyword.detached_pattern.keeps.andThen fun pattern => ?_
    split
    · exact keeps_refuse_bind
    · exact hb.nested.andThen fun _ => (stays_addPlain (by rfl) (by rfl)).andThen fun _ => keeps_pure trivial
  unfold Building.addOpenProperties
  refine keeps_graph.andThen fun graph => Keyword.detached_members?.keeps.andThen fun found => ?_
  simp only
  refine (keeps_foldlM (fun before member _ => hpattern before member) trivial).andThen fun patterns => ?_
  split
  · exact keeps_pure trivial
  · exact keeps_pure trivial
  · exact stays_addPlain (by rfl) (by rfl)
  · exact hb.nested.andThen fun _ => stays_addPlain (by rfl) (by rfl)
  · exact keeps_malformed

theorem addPropertyNames (hb : Arranging config build) : Stays config (addPropertyNames build scope type node) := by
  unfold Building.addPropertyNames
  split
  · exact keeps_pure trivial
  · exact hb.nested.andThen fun _ => stays_addPlain (by rfl) (by rfl)

theorem addMostProperties : Stays config (do
    if let some count ← Keyword.count? scope.className node "maxProperties" then
      Build.addTypeCheck type (.maxProperties count)) := by
  refine Keyword.detached_count?.keeps.andThen fun most => ?_
  split
  · exact stays_addPlain (by rfl) (by rfl)
  · exact keeps_pure trivial

theorem addPropertyCounts : Stays config (addPropertyCounts scope type node) := by
  unfold Building.addPropertyCounts
  refine Keyword.detached_count?.keeps.andThen fun least => ?_
  split
  · exact (stays_addPlain (by rfl) (by rfl)).andThen fun _ => addMostProperties
  · exact addMostProperties

theorem addDependencies (hb : Arranging config build) :
    Stays config (addDependencies build scope type node keyword) := by
  have hdependency : ∀ member, Stays config (addDependency build scope type member) := by
    rintro ⟨trigger, dependency⟩
    unfold addDependency
    simp only
    split
    · exact Keyword.detached_strings.keeps.andThen fun _ => stays_addPlain (by rfl) (by rfl)
    · exact keeps_pure trivial
    · exact hb.nested.andThen fun _ => stays_addPlain (by rfl) (by rfl)
    · exact hb.nested.andThen fun _ => stays_addPlain (by rfl) (by rfl)
    · exact keeps_malformed
  unfold Building.addDependencies
  refine Keyword.detached_members?.keeps.andThen fun found => ?_
  split
  · exact keeps_forM fun member _ => hdependency member
  · exact keeps_pure trivial

/-- What is lifted is listed in the branch's type, so it has not been relaxed, and stays so while others are lifted. -/
theorem lift {sources : List PropertyId} {source : PropertyId} (hmem : source ∈ sources) {combinator : Combinator} :
    Keeps config (Session.Sparing config sources) (lift type combinator source) fun _ => True := by
  unfold Building.lift
  refine meets_graph fun t ⟨ht, hsources⟩ => ?_
  simp only
  split
  · exact meets_pure fun s hs => hs ▸ ⟨⟨ht, hsources⟩, trivial⟩
  · have hlifted : (lifted (t.graph.property source) combinator).relaxed = false := by
      refine Eq.trans ?_ (hsources source hmem).2
      unfold lifted Property.addDecorator
      split
      · rfl
      · rfl
    refine Meets.bind (Q := fun id s => s.Sparing config sources ∧ s.Loose id) (fun s hs => ⟨fun id s' hrun => ?_,
      fun _ _ hhalts => absurd hhalts (Runs.not_halts (runs_addProperty.2 ⟨rfl, rfl⟩))⟩) fun id => ?_
    · subst hs
      obtain ⟨rfl, rfl⟩ := runs_addProperty.1 hrun
      obtain ⟨harranged, hloose⟩ := ht.addProperty (Property.arranged_lifted _ _) ⟨[], Property.divided_lifted _ _⟩ hlifted
      refine ⟨⟨harranged, fun other hother => ?_⟩, hloose⟩
      obtain ⟨hthere, hrelaxed⟩ := hsources other hother
      refine ⟨hthere.grows (Session.precedes_addProperty s _).recalls.grows, ?_⟩
      exact (congrArg Property.relaxed (Graph.property_addProperty_of_lt s.graph _ hthere)).trans hrelaxed
    · refine Meets.bind (Q := fun _ s => s.Sparing config sources) ?_ fun _ => keeps_pure trivial
      unfold Build.addTypeProperty Build.modifyType
      exact meets_of_runs (v := ⟨⟩) (fun _ => runs_modifyGraph.2 rfl) fun s hs =>
        ⟨hs.1.arranged.list hs.2, hs.1.unrelaxed⟩

theorem liftBranch {combinator : Combinator} {branch : PropertyId} :
    Stays config (liftBranch type branch combinator) := by
  unfold Building.liftBranch
  refine meets_graph fun t ht => ?_
  split
  · exact meets_pure fun s hs => hs ▸ ⟨ht, trivial⟩
  · rename_i nested _
    have hlift : Keeps config (Session.Sparing config (t.graph.type nested).properties) (do
        let names ← (t.graph.type nested).properties.mapM (Building.lift type combinator)
        return names.filterMap id) fun _ => True :=
      (keeps_mapM fun _ hsource => lift hsource).andThen fun _ => keeps_pure trivial
    refine fun s hs => ?_
    subst hs
    obtain ⟨hok, herror⟩ := hlift s ⟨ht, fun id hid => ht.listed _ id hid⟩
    exact ⟨fun names s' hrun => ⟨(hok names s' hrun).1.arranged, trivial⟩, fun halt s' hhalts =>
      (herror halt s' hhalts).arranged⟩

theorem applyObjectCompositions (hb : Arranging config build) :
    Stays config (applyObjectCompositions build scope type node) := by
  have hbranch : ∀ combinator inner, Stays config (objectBranch build scope type combinator inner) := by
    intro combinator inner
    unfold objectBranch
    refine (hb _ _).stays.andThen fun property => ?_
    simp only
    split
    · exact keeps_pure trivial
    · exact liftBranch.andThen fun _ => keeps_pure trivial
  have hcomposition : ∀ combinator, Stays config (addObjectComposition build scope type node combinator) := by
    intro combinator
    unfold addObjectComposition
    refine Keyword.detached_branches?.keeps.andThen fun found => ?_
    split
    · exact keeps_pure trivial
    · refine (keeps_noteIfEmpty fun _ _ => stays_notify).andThen fun _ => ?_
      refine (keeps_mapM fun inner _ => hbranch combinator inner).andThen fun branches => ?_
      exact stays_addTypeCheck trivial rfl rfl
  unfold Building.applyObjectCompositions
  refine (keeps_forM fun combinator _ => hcomposition combinator).andThen fun _ => ?_
  refine Keeps.bind (keeps_of_gives (keeps_conditional? (fun _ _ => stays_notify) fun _ => (hb _ _).stays)
    gives_conditional?) fun conditional hshape => ?_
  cases conditional with
  | none => exact keeps_pure trivial
  | some check =>
    obtain ⟨_, _, _, rfl⟩ := hshape check rfl
    exact stays_addTypeCheck trivial rfl rfl

theorem fill (hb : Arranging config build) : Stays config (fill build scope type node) := by
  have hrest : Stays config (do
      Building.addProperties build scope type node
      Building.addOpenProperties build scope type node
      Building.addPropertyNames build scope type node
      Building.addPropertyCounts scope type node
      dependencyWords.forM (Building.addDependencies build scope type node)
      Building.applyObjectCompositions build scope type node) := by
    refine hb.addProperties.andThen fun _ => hb.addOpenProperties.andThen fun _ => ?_
    refine hb.addPropertyNames.andThen fun _ => addPropertyCounts.andThen fun _ => ?_
    exact (keeps_forM fun _ _ => hb.addDependencies).andThen fun _ => hb.applyObjectCompositions
  unfold Building.fill
  simp only
  split
  · refine Keeps.andThen (stays_modify fun s hs => ?_) fun _ => hrest
    exact hs.modifyType (fun _ _ hv => Or.inl hv) fun _ _ hid => Or.inl hid
  · exact hrest

/-! ## Objects and unions -/

theorem reserveFor : Stays config (reserveFor site node) := by
  unfold Building.reserveFor
  exact detached_read.keeps.andThen fun _ => stays_reserve

theorem materialize (hb : Arranging config build) : Stays config (materialize build site node type) := by
  unfold Building.materialize
  exact keeps_graph.andThen fun _ => hb.fill.andThen fun _ => stays_finish.andThen fun _ =>
    Course.keeps_instanceProperty

/-- A draft without branches gets the keywords that every property has, and is added. -/
theorem places_single {draft : Property} (h : draft.Drafted config Check.isPlain) (hparted : draft.Parted)
    {required : Bool} : Places config (do
      let property ← applyValueKeywords draft node required
      Build.addProperty property) :=
  have ⟨block, hdivided⟩ := hparted
  places_drafted detached_applyValueKeywords (keeps_and (drafted_applyValueKeywords h) (divided_applyValueKeywords hdivided))
    fun _ hvalued => places_addProperty hvalued.1.arranged ⟨block, hvalued.2⟩ hvalued.1.relaxed

theorem objectInto (hb : Arranging config build) : Places config (objectInto build site node type) := by
  unfold Building.objectInto
  exact places_after (keeps_of_gives hb.materialize (keeps_and drafted_materialize supplies_materialize)) fun _ hproperty =>
    places_single hproperty.1 ⟨[], hproperty.2.divided⟩

theorem object (hb : Arranging config build) : Places config (object build site node) := by
  unfold Building.object
  exact places_after reserveFor fun _ _ => hb.objectInto

theorem member (hb : Arranging config build) (kind : Kind) : Stays config (member build site node kind) := by
  unfold Building.member
  split
  · exact reserveFor.andThen fun _ => hb.materialize
  · exact hb.ofKind kind

theorem complement (hb : Arranging config build) {draft : Property} (h : draft.Drafted config Check.isPlain)
    (hparted : draft.Parted) : Places config (complement build site node draft) := by
  obtain ⟨block, hdivided⟩ := hparted
  unfold Building.complement
  refine places_drafted detached_applyValueKeywords
    (keeps_and (drafted_applyValueKeywords h) (divided_applyValueKeywords hdivided)) fun valued hvalued => ?_
  refine places_after (keeps_of_gives hb.applyCompositions
    (keeps_and (arranged_applyCompositions hvalued.1) (divided_applyCompositions hvalued.2))) fun result hresult => ?_
  exact places_addProperty hresult.1.1 ⟨block, hresult.2⟩ hresult.1.2

theorem union (hb : Arranging config build) {types : List Json} : Places config (union build site node types) := by
  have hmembers : ∀ {kinds : List Kind} {fresh : Property}, fresh.Drafted config Check.isPlain →
      Keeps config (Session.Arranged config) (kinds.foldlM (fun property kind =>
        return addMember property (← Building.member build site node kind)) fresh)
        (Property.Drafted config Check.isPlain) := fun hfresh =>
    keeps_foldlM (fun joined kind hjoined => (keeps_of_gives (hb.member kind) (drafted_member kind)).bind fun _ hpart =>
      keeps_pure (drafted_addMember hjoined hpart)) hfresh
  unfold Building.union
  refine places_drafted detached_unionKinds gives_unionKinds fun kinds hkinds => ?_
  refine places_drafted detached_newProperty (keeps_and (drafted_newProperty (p := Check.isPlain)) collects_newProperty)
    fun fresh hfresh => ?_
  have hnodup : (kinds.filter (· ≠ .null)).Nodup := hkinds.1.filter _
  refine places_after (keeps_and (hmembers hfresh.1) (parted_members hnodup hfresh.2)) fun joined hjoined => ?_
  obtain ⟨hdrafted, block, hcollects⟩ := hjoined
  refine places_detached detached_allowsNull fun allowed => hb.complement ((drafted_present ?_).addPlain rfl)
    ⟨block, (divided_present ?_).addCheck rfl⟩
  · exact hdrafted.of_validators rfl rfl
  · exact hcollects.divided.of_validators rfl

/-! ## Definitions -/

theorem keeps_getProperty : Keeps config (Session.Arranged config) (Build.getProperty id) fun property =>
    property.Arranged config ∧ property.Parted := by
  refine fun s hs => ⟨fun property s' hrun => ?_, fun _ _ hhalts =>
    absurd hhalts (Runs.not_halts (runs_getProperty.2 ⟨rfl, rfl⟩))⟩
  obtain ⟨rfl, rfl⟩ := runs_getProperty.1 hrun
  exact ⟨hs, hs.properties id, hs.parted id⟩

/-- Filling in leaves the mark of a placeholder as it is. -/
theorem bind {definition placeholder : PropertyId} : Stays config (bind definition placeholder) := by
  unfold Building.bind
  refine keeps_getProperty.bind fun source hsource => detached_read.keeps.andThen fun known => ?_
  obtain ⟨harranged, block, hdivided⟩ := hsource
  exact stays_modify fun s hs =>
    hs.modifyProperty (fun _ => harranged.bound _ _) (fun _ => ⟨block, hdivided.bound _ _⟩) (Or.inr rfl)

theorem complete {key : DefinitionKey} {definition : PropertyId} : Stays config (complete key definition) := by
  unfold Building.complete
  refine keeps_get.andThen fun session => stays_setDefinition.andThen fun _ => ?_
  split
  · exact keeps_forM fun _ _ => bind
  · exact keeps_pure trivial

theorem copy {definition : PropertyId} : Places config (copy definition site) := by
  unfold Building.copy
  refine places_after keeps_getProperty fun source hsource => ?_
  split
  · exact places_refuse
  · obtain ⟨harranged, block, hdivided⟩ := hsource
    exact places_detached detached_read fun _ =>
      places_addProperty (harranged.copied _ _ _ _) ⟨block, hdivided.copied _ _ _ _⟩ rfl

theorem placeholder {key : DefinitionKey} {reference : String} {begun : Option TypeId} {waiting : List PropertyId} :
    Places config (placeholder key site reference begun waiting) := by
  unfold Building.placeholder
  cases begun with
  | some type =>
    refine places_after (keeps_of_gives Course.keeps_instanceProperty
      (keeps_and drafted_instanceProperty divided_instanceProperty)) fun _ hdraft => ?_
    exact places_addProperty (hdraft.1.mono fun _ => Check.isSingle_of_isPlain).arranged ⟨[], hdraft.2⟩ hdraft.1.relaxed
  | none =>
    refine places_drafted detached_presentProperty (keeps_and drafted_presentProperty divided_presentProperty)
      fun draft hdraft => ?_
    have hplain : (draft.addCheck (.deferred reference)).Drafted config Check.isPlain := hdraft.1.addPlain rfl
    have hdeferred := hplain.mono fun _ => Check.isSingle_of_isPlain
    refine Meets.bind (places_addProperty hdeferred.arranged ⟨[], hdraft.2.addCheck rfl⟩ hdeferred.relaxed) fun id => ?_
    refine Meets.bind (Q := fun _ s => s.Arranged config ∧ s.Loose id) ?_ fun _ => meets_pure fun _ hs => hs
    exact meets_of_runs (v := ⟨⟩) (fun _ => runs_modify.2 rfl) fun _ hs =>
      ⟨hs.1.of_graph rfl, hs.2.hasProperty, hs.2.relaxed, hs.2.unlisted⟩

theorem define (hb : Arranging config build) {target : Target} : Stays config (define build target) := by
  have hcompleted : ∀ definition, Stays config (do
      Building.complete target.key definition
      return definition) := fun _ => complete.andThen fun _ => keeps_pure trivial
  unfold Building.define
  simp only
  split
  · rw [bind_map_left]
    refine reserveFor.andThen fun type => stays_setDefinition.andThen fun _ => ?_
    exact hb.objectInto.stays.andThen hcompleted
  · rw [pure_bind]
    exact stays_setDefinition.andThen fun _ => (hb _ _).stays.andThen hcompleted

theorem locate {reference : String} : Stays config (locate scope reference) := by
  unfold Building.locate
  refine keeps_get.andThen fun session => ?_
  split
  · exact keeps_pure trivial
  · exact keeps_refuse

theorem refer (hb : Arranging config build) {reference : String} : Places config (refer build site reference) := by
  unfold Building.refer
  refine places_after locate fun target _ => places_after keeps_get fun session _ => ?_
  split
  · exact copy
  · exact placeholder
  · exact places_after hb.define fun _ _ => copy

/-! ## Nodes -/

theorem typed (hb : Arranging config build) {word : String} : Places config (typed build site node word) := by
  unfold Building.typed
  split
  · exact places_refuse
  · exact hb.object
  · exact places_after (keeps_of_gives (hb.ofKind _) (keeps_and (drafted_ofKind _) (parted_ofKind _)))
      fun _ ⟨hdraft, hparted⟩ => hb.complement hdraft hparted

/-- A description of its own leaves a reference's property loose. -/
theorem referred (hb : Arranging config build) {reference : Json} :
    Places config (referred build site node reference) := by
  unfold Building.referred
  split
  · refine Meets.bind hb.refer fun id => ?_
    simp only
    split
    · rename_i description _
      refine Meets.bind (Q := fun _ s => s.Arranged config ∧ s.Loose id) ?_ fun _ => meets_pure fun _ hs => hs
      refine meets_of_runs (v := ⟨⟩) (fun _ => runs_modifyGraph.2 rfl) fun s hs => ⟨?_, ?_, ?_, hs.2.unlisted⟩
      · exact hs.1.modifyProperty (fun h => ⟨h.ranked, h.admitted, h.custom, h.composed, h.exclusive⟩)
          (fun ⟨block, h⟩ => ⟨block, h.of_validators rfl⟩) (Or.inr rfl)
      · exact hs.2.hasProperty.grows (Session.grows_modifyProperty _ _ _)
      · exact (congrArg Property.relaxed (Graph.property_modifyProperty s.graph _ hs.2.hasProperty)).trans hs.2.relaxed
    · exact meets_pure fun _ hs => hs
  · exact places_malformed

theorem nodeProperty (hb : Arranging config build) : Places config (nodeProperty build site node) := by
  have hpresent : ∀ f : Property → Build PropertyId,
      (∀ draft, draft.Drafted config Check.isPlain ∧ draft.Divided [] → Places config (f draft)) →
      Places config (presentProperty site >>= f) := fun _ hf =>
    places_drafted detached_presentProperty (keeps_and drafted_presentProperty divided_presentProperty) hf
  unfold Building.nodeProperty
  refine places_detached Keyword.detached_normalize fun normal => ?_
  split
  · exact hb.referred
  · split
    · exact hb.typed
    · exact hb.union
    · exact places_malformed
    · split
      · exact hb.object
      · split
        · exact hpresent _ fun _ h => hb.complement (h.1.of_validators rfl rfl) ⟨[], h.2.of_validators rfl⟩
        · split
          · refine hpresent _ fun draft h => places_detached Keyword.detached_enumeration? fun found => ?_
            cases found with
            | none => exact hb.complement h.1 ⟨[], h.2⟩
            | some values =>
              exact hb.complement (drafted_inferEnumeration h.1 values) ⟨[], divided_inferEnumeration h.2 values⟩
          · exact hpresent _ fun _ h => hb.complement h.1 ⟨[], h.2⟩

end Arranging

/-- **Every bound keeps all arranged.** -/
theorem arranging_property : ∀ bound : Nat, Arranging config (Building.property bound)
  | 0, _, _ => fun _ hs => ⟨fun _ _ hrun => absurd hrun not_runs_throw, fun _ _ hhalts => by
    obtain ⟨_, rfl⟩ := halts_throw.1 hhalts
    exact hs⟩
  | bound + 1, _, _ => (arranging_property bound).nodeProperty

/-! ## Documents -/

theorem stays_document {source : Source} {value : Json} : Stays config (Building.document source value) := by
  have hroot : ∀ scope, Stays config (rootOf source scope value) := by
    intro scope
    unfold rootOf
    split
    · refine Arranging.locate.andThen fun target => ?_
      split
      · exact keeps_pure trivial
      · exact keeps_refuse
    · split
      · exact keeps_pure trivial
      · exact keeps_refuse
  unfold Building.document
  refine Keeps.andThen (stays_modify fun s hs => hs.of_graph rfl) fun _ => keeps_get.andThen fun session => ?_
  have hb : Arranging config (Building.property (recursionBound session.documents)) := arranging_property _
  refine (hroot _).andThen fun found => stays_reserve.andThen fun type => keeps_graph.andThen fun graph => ?_
  obtain ⟨root, key⟩ := found
  simp only
  cases key with
  | none => exact hb.fill.andThen fun _ => stays_finish.andThen fun _ => keeps_pure trivial
  | some key =>
    refine stays_setDefinition.andThen fun _ => hb.fill.andThen fun _ => stays_finish.andThen fun target => ?_
    refine (keeps_of_gives Course.keeps_instanceProperty
      (keeps_and drafted_instanceProperty divided_instanceProperty)).bind fun draft hdraft => ?_
    have hsingle := hdraft.1.mono fun _ => Check.isSingle_of_isPlain
    refine (places_addProperty hsingle.arranged ⟨[], hdraft.2⟩ hsingle.relaxed).stays.andThen fun definition => ?_
    exact Arranging.complete.andThen fun _ => keeps_pure trivial

end Building

namespace Session

variable {config : Config} {s : Session}

theorem Arranged.perform (h : s.Arranged config) (call : Call) : (s.perform config call).Arranged config := by
  cases call with
  | register source value => exact h.of_graph rfl
  | process source value =>
    have hdocument : Stays config (Building.document source value) := stays_document
    obtain ⟨hok, herror⟩ := hdocument s h
    change (s.process config source value).2.Arranged config
    cases hresult : s.process config source value with
    | mk outcome s' =>
      cases outcome with
      | ok type => exact (hok type s' hresult).1
      | error halt => exact herror halt s' hresult

/-- **Calls leave everything arranged**, the failed ones too. -/
theorem arranged_performAll (config : Config) (calls : List Call) : (performAll config calls).Arranged config :=
  keeps_performs (fun _ call hs => hs.perform call) calls {} (arranged_initial config)

end Session
end SchemaTypes
