import SchemaTypes.Proofs.Building.Nodes
import SchemaTypes.Proofs.Building.Origins
import SchemaTypes.Proofs.Building.PropertyNames
import SchemaTypes.Proofs.Building.TrailEnds
/-!
# Definitions and nodes, deed by deed

A reference to a definition nobody has built begins it, builds its node along the definition's own trail, and completes
it.  What is built as an object embodies the type it was begun with.  A reference to a definition that is in progress
as an object finds a type that is not finished, and a definition that leads back to itself: it is in progress because
something on the way to the reference is its own node.

`accepts_property` closes the recursion: every bound keeps the contract, along every trail.
-/
namespace SchemaTypes.Building

variable {config : Config} {build : Builder} {site : Site} {node : Json} {reference : String} {target : Target}
  {s m s' : Session} {id definition : PropertyId} {key : DefinitionKey}

/-! ## What a reference may find -/

theorem runs_complete {type : Option TypeId} {waiting : List PropertyId} {u : Unit}
    (hpending : s.definition? key = some (.inProgress type waiting)) :
    (complete key definition).Runs config s u s' ↔
      s' = s.completed config.settings.implicitNull key definition waiting :=
  @Env.runs_complete ⟨False, config, "", [], 0⟩ s s' definition key type waiting u hpending

/-- A copy is added, and nothing else happens. -/
theorem runs_copy (h : (copy definition site).Runs config s id s') : ∃ identifier,
    id = (s.graph.addProperty (copied (s.graph.property definition) site.name identifier site.required
      config.settings.implicitNull)).1 ∧
    s' = s.withGraph (s.graph.addProperty (copied (s.graph.property definition) site.name identifier site.required
      config.settings.implicitNull)).2 := by
  unfold copy at h
  rw [Build.runs_bind_of_iff fun _ _ => Build.runs_getProperty] at h
  split at h
  · exact absurd h Build.not_runs_refuse
  · rename_i identifier _
    simp only at h
    rw [Build.runs_read_bind] at h
    exact ⟨identifier, Build.runs_addProperty.1 h⟩

/-- **A reference finds its definition built, in progress or unknown.**  In the first case the property is a copy, in
the second it stands for what is being built, and in the third the definition is built first. -/
theorem runs_refer (h : (refer build site reference).Runs config s id s') : ∃ target,
    targetIn? s.documents site.scope.document reference = some target ∧
      ((∃ definition, s.definition? target.key = some (.built definition) ∧
          (copy definition site).Runs config s id s') ∨
        (∃ type waiting, s.definition? target.key = some (.inProgress type waiting) ∧
          (placeholder target.key site reference type waiting).Runs config s id s') ∨
        (s.definition? target.key = none ∧ ∃ definition m, (define build target).Runs config s definition m ∧
          (copy definition site).Runs config m id s')) := by
  unfold refer at h
  obtain ⟨target, m, hlocate, hrest⟩ := Build.runs_bind.1 h
  obtain ⟨htarget, rfl⟩ := runs_locate.1 hlocate
  refine ⟨target, htarget, ?_⟩
  rw [Build.runs_get_bind] at hrest
  split at hrest
  · exact Or.inl ⟨_, ‹_›, hrest⟩
  · exact Or.inr (Or.inl ⟨_, _, ‹_›, hrest⟩)
  · exact Or.inr (Or.inr ⟨‹_›, Build.runs_bind.1 hrest⟩)

namespace Trail

variable {trail : Trail}

/-- The trail along which a definition's node is built. -/
def inside (trail : Trail) (target : Target) : Trail :=
  { trail with document := target.key.document, spelled := references target.node }

/-! ## Copies and placeholders -/

theorem after_copy (trail : Trail) (hbuilt : s.definition? key = some (.built definition))
    (h : (copy definition site).Runs trail.config s id s') :
    trail.After s s' ∧ (s'.graph.property id).nested = (s.graph.property definition).nested ∧
      (s.Own definition → s'.Own id) := by
  obtain ⟨identifier, rfl, rfl⟩ := runs_copy h
  refine ⟨.of_deed (.copy _ identifier _ hbuilt) (fun _ => rfl) (Scene.asFinished_of_types rfl), ?_,
    fun hown => Session.own_addProperty s hown.isLifted⟩
  exact (congrArg Property.nested (Graph.property_addProperty _ _)).trans rfl

/-- A placeholder of an object holds the object's type, and any other one waits. -/
theorem after_placeholder {type : Option TypeId} {waiting : List PropertyId} (hs : trail.Ready s)
    (hd : site.scope.document = trail.document) (hmem : reference ∈ trail.spelled)
    (htarget : targetIn? s.documents site.scope.document reference = some target)
    (hpending : s.definition? target.key = some (.inProgress type waiting))
    (h : (placeholder target.key site reference type waiting).Runs trail.config s id s') :
    trail.After s s' ∧ (s'.graph.property id).nested = type ∧ s'.Own id := by
  have hplaced := h
  unfold placeholder at h
  cases type with
  | some type =>
    obtain ⟨property, m, hinstance, hadd⟩ := Build.runs_bind.1 h
    obtain ⟨rfl, _, hnested, _, hown⟩ := runs_instanceProperty hinstance
    obtain ⟨rfl, rfl⟩ := Build.runs_addProperty.1 hadd
    refine ⟨.of_deed (.recur hpending (fun htraced => ?_) hinstance) (fun _ => rfl) (Scene.asFinished_of_types rfl), ?_,
      Session.own_addProperty m hown⟩
    · have hinProgress : m.InProgress target.key (some type) := ⟨waiting, hpending⟩
      exact ⟨hs.unfinished htraced _ _ hinProgress, hs.describes htraced _ _ hinProgress,
        hs.leads htraced _ _ hinProgress reference hmem target (hd ▸ htarget)⟩
    · exact (congrArg Property.nested (Graph.property_addProperty _ _)).trans hnested
  | none =>
    obtain ⟨property, m, hpresent, hrest⟩ := Build.runs_bind.1 h
    obtain ⟨rfl, hflat⟩ := Build.tells_presentProperty hpresent
    obtain ⟨id', m', hadd, hrest'⟩ := Build.runs_bind.1 hrest
    obtain ⟨rfl, rfl⟩ := Build.runs_addProperty.1 hadd
    rw [Build.runs_modify_bind] at hrest'
    obtain ⟨rfl, rfl⟩ := Build.runs_pure.1 hrest'
    have hdeferred : trail.config.Admits (.deferred reference) := trivial
    have hdrafted := hflat.refines (refines_addCheck hdeferred)
    have hleads : trail.traced → Leads m.documents target.key target.key := fun htraced =>
      hs.leads htraced _ _ ⟨waiting, hpending⟩ reference hmem target (hd ▸ htarget)
    have hown := Session.own_addProperty m hdrafted.own
    refine ⟨⟨.single (.wait hpending hleads hdrafted ⟨site, reference, target, _, htarget, rfl, hplaced⟩), ?_,
      Scene.asFinished_of_types rfl⟩, ?_,
      hown.hasProperty, hown.isLifted⟩
    · exact Env.inProgress_awaiting _ hpending
    · exact (congrArg Property.nested (Graph.property_addProperty _ _)).trans hdrafted.nested

/-! ## Definitions -/

/-- A definition that is met is led to by everything in progress, and leads to what its node refers to. -/
theorem Ready.begin (hs : trail.Ready s) (hmem : reference ∈ trail.spelled)
    (htarget : targetIn? s.documents trail.document reference = some target)
    (hnone : s.definition? target.key = none) {type : Option TypeId}
    (htype : ∀ known, type = some known → s.Unfinished known ∧ Keyword.isObject target.node = true) :
    (trail.inside target).Ready (s.setDefinition target.key (.inProgress type [])) := by
  have hnode := nodeAt?_target hs.distinct htarget
  refine ⟨hs.distinct, hs.collapsed.congr rfl rfl rfl fun _ => ⟨rfl, rfl, rfl, rfl⟩, fun htraced key known hkey => ?_,
    fun htraced key known hkey => ?_, fun htraced key found hkey other hother next hnext => ?_,
    fun htraced => (hs.marked htraced).progress (fun _ ⟨_, hpending⟩ => nomatch hnone.symm.trans hpending) type,
    fun other hother => ⟨(hs.filling other hother).hasType, (hs.filling other hother).signature⟩⟩
  · have hu : s.Unfinished known := by
      rcases (Env.inProgress_begin hnone type key _).1 hkey with hkey | ⟨_, heq⟩
      · exact hs.unfinished htraced key known hkey
      · exact (htype known heq.symm).1
    exact ⟨hu.hasType, hu.signature⟩
  · rcases (Env.inProgress_begin hnone type key _).1 hkey with hkey | ⟨rfl, heq⟩
    · exact hs.describes htraced key known hkey
    · exact ⟨target.node, hnode, Or.inl (htype known heq.symm).2⟩
  · have hrefers : Refers s.documents target.key next.key :=
      ⟨target.node, hnode, other, hother, next, hnext, rfl⟩
    rcases (Env.inProgress_begin hnone type key found).1 hkey with hkey | ⟨rfl, _⟩
    · exact (hs.leads htraced key found hkey reference hmem target htarget).tail hrefers
    · exact .single hrefers

/-- Completing a definition ends what beginning it began. -/
theorem runs_complete_begun {type : Option TypeId} {u : Unit} (hs : trail.Ready s)
    (htarget : targetIn? s.documents trail.document reference = some target)
    (hnone : s.definition? target.key = none) (htype : type.isSome = Keyword.isObject target.node)
    (hunfinished : ∀ known, type = some known → s.Unfinished known)
    (hdeeds : Session.Deeds trail.config trail.traced (s.setDefinition target.key (.inProgress type [])) m)
    (hinProgress : ∀ key found, m.InProgress key found ↔
      (s.setDefinition target.key (.inProgress type [])).InProgress key found)
    (hmade : Made trail.config target.node type definition m)
    (hembodies : ∀ known, type = some known → m.Embodies definition known) (hown : trail.traced → m.Own definition)
    (hrun : (complete target.key definition).Runs trail.config m u s') :
    Session.Deeds trail.config trail.traced s s' ∧ (∀ key found, s'.InProgress key found ↔ s.InProgress key found) ∧
      m.AsFinished s' ∧ s'.definition? target.key = some (.built definition) ∧
      ∀ known, type = some known → s'.Embodies definition known := by
  have hnode := nodeAt?_target hs.distinct htarget
  obtain ⟨waiting, hpending⟩ :=
    (hinProgress target.key type).2 ((Env.inProgress_begin hnone type _ type).2 (Or.inr ⟨rfl, rfl⟩))
  obtain rfl := (Building.runs_complete hpending).1 hrun
  have hnode' : nodeAt? m.documents target.key = some target.node := hdeeds.documents ▸ hnode
  have hbegun := Relation.ReflTransGen.head (.begin hnone hnode htype hunfinished) hdeeds
  have hlast : Session.Deed trail.config trail.traced m
      (m.completed trail.config.settings.implicitNull target.key definition waiting) :=
    .complete hpending hnode' hmade hembodies hown
  refine ⟨hbegun.tail hlast, fun key found => ?_, ?_, ?_, fun known heq => ?_⟩
  · unfold Session.InProgress
    rw [Session.definition?_completed]
    split
    · rename_i heq
      subst heq
      rw [hnone]
      constructor
      · rintro ⟨_, hsome⟩
        cases hsome
      · rintro ⟨_, hsome⟩
        cases hsome
    · rename_i hne
      have hother := hinProgress key found
      rw [Env.inProgress_begin hnone] at hother
      exact hother.trans ⟨fun h => h.resolve_right fun h => hne h.1, Or.inl⟩
  · exact Scene.asFinished_of_types (Session.types_foldl_bindOne _ _ _)
  · rw [Session.definition?_completed, if_pos rfl]
  · obtain ⟨hsignature, hnested⟩ := hembodies known heq
    have hentry := Session.Deed.entry hlast hsignature
    obtain ⟨source, hsource, hpasses⟩ := Session.passesTo_completed trail.config
      trail.config.settings.implicitNull target.key definition waiting m definition
    obtain rfl : source = definition := hsource.elim id id
    have hcollapsed := Session.Precedes.collapsed (Session.Deeds.precedes hbegun) hs.collapsed
    refine ⟨hentry.symm ▸ hsignature, ?_⟩
    rw [hpasses.nested, hnested, Session.Deeds.canonical (.single hlast) hcollapsed hsignature]

/-- **A definition is built from its node**, and if the node is an object, it embodies a type. -/
theorem runs_define {bound : Nat} (hb : (trail.inside target).Accepts (property bound)) (hs : trail.Ready s)
    (hmem : reference ∈ trail.spelled) (htarget : targetIn? s.documents trail.document reference = some target)
    (hnone : s.definition? target.key = none)
    (h : (define (property bound) target).Runs trail.config s definition s') :
    trail.After s s' ∧ s'.definition? target.key = some (.built definition) ∧
      (Keyword.isObject target.node = true → ∃ type, s'.Embodies definition type) := by
  unfold define at h
  simp only at h
  split at h
  · rename_i hobject
    obtain ⟨found, m, hreserve, hrest⟩ := Build.runs_bind.1 h
    obtain ⟨type, hreserved, rfl⟩ := Build.runs_map.1 hreserve
    obtain ⟨hreserved, className, rfl⟩ := runs_reserveFor hreserved
    rw [Build.runs_modify_bind] at hrest
    obtain ⟨built, m', hmade, hrest⟩ := Build.runs_bind.1 hrest
    obtain ⟨_, m'', hcomplete, hreturn⟩ := Build.runs_bind.1 hrest
    obtain ⟨rfl, rfl⟩ := Build.runs_pure.1 hreturn
    have hready := hs.reserved target.namespaceName className false
    have hu := (hreserved.unfinished type).2 (Or.inr rfl)
    have hbegun : (s.withGraph (s.graph.reserve target.namespaceName className false).2).AsFinished
        ((s.withGraph (s.graph.reserve target.namespaceName className false).2).setDefinition target.key
          (.inProgress (some type) [])) := Scene.asFinished_of_types rfl
    obtain ⟨hafter, hembodies, hown⟩ := runs_objectInto hb rfl (List.Subset.refl _)
      (hready.begin hmem htarget hnone fun known heq => by cases heq; exact ⟨hu, hobject⟩)
      ⟨hu.hasType, hu.signature⟩ hmade
    have htype : (some type).isSome = Keyword.isObject target.node := hobject.symm
    obtain ⟨hdeeds, hinProgress, hasFinished, hbuilt, hembodies'⟩ := runs_complete_begun hready htarget hnone
      htype (fun known heq => by cases heq; exact hu) hafter.deeds hafter.inProgress (.object hmade)
      (fun known heq => by cases heq; exact hembodies) (fun _ => hown) hcomplete
    have hfinished : trail.AfterFinishing type _ s' :=
      ⟨hdeeds, hinProgress, hbegun.finishedOne (hafter.finishedOne.trans hasFinished)⟩
    exact ⟨hfinished.reserved hreserved, hbuilt, fun _ => ⟨type, hembodies' type rfl⟩⟩
  · rename_i hplain
    have hplain : Keyword.isObject target.node = false := Bool.eq_false_iff.2 hplain
    rw [Build.runs_pure_bind, Build.runs_modify_bind] at h
    obtain ⟨built, m, hnode, hrest⟩ := Build.runs_bind.1 h
    obtain ⟨_, m', hcomplete, hreturn⟩ := Build.runs_bind.1 hrest
    obtain ⟨rfl, rfl⟩ := Build.runs_pure.1 hreturn
    have hready := hs.begin hmem htarget hnone (show ∀ known, none = some known → _ from fun _ heq => nomatch heq)
    obtain ⟨hafter, hown⟩ := hb.makes _ target.node rfl (List.Subset.refl _) hready hnode
    have hbegun : s.AsFinished (s.setDefinition target.key (.inProgress none [])) := Scene.asFinished_of_types rfl
    have htype : (none : Option TypeId).isSome = Keyword.isObject target.node := hplain.symm
    obtain ⟨hdeeds, hinProgress, hasFinished, hbuilt, _⟩ := runs_complete_begun hs htarget hnone
      htype (fun _ heq => nomatch heq) hafter.deeds hafter.inProgress (.value hnode) (fun _ heq => nomatch heq) hown
      hcomplete
    refine ⟨⟨hdeeds, hinProgress, fun id => ?_⟩, hbuilt, fun hobject => ?_⟩
    · exact ((hasFinished id).trans (hafter.asFinished id)).trans (hbegun id)
    · rw [hplain] at hobject
      cases hobject

/-! ## Nodes -/

theorem makes_refer {bound : Nat} (hb : ∀ target : Target, (trail.inside target).Accepts (property bound))
    (hd : site.scope.document = trail.document) (hmem : reference ∈ trail.spelled) :
    trail.Makes (refer (property bound) site reference) := by
  intro s id s' hs hrun
  obtain ⟨target, htarget, ⟨definition, hbuilt, hcopy⟩ | ⟨type, waiting, hpending, hplaceholder⟩ |
    ⟨hnone, definition, m, hdefine, hcopy⟩⟩ := runs_refer hrun
  · obtain ⟨hafter, _, hown⟩ := after_copy trail hbuilt hcopy
    exact ⟨hafter, fun htraced => hown ((hs.marked htraced).built _ _ hbuilt)⟩
  · obtain ⟨hafter, _, hown⟩ := after_placeholder hs hd hmem htarget hpending hplaceholder
    exact ⟨hafter, fun _ => hown⟩
  · obtain ⟨hafter, hbuilt, _⟩ := runs_define (hb target) hs hmem (hd ▸ htarget) hnone hdefine
    obtain ⟨hcopied, _, hown⟩ := after_copy trail hbuilt hcopy
    exact ⟨hafter.trans hcopied, fun htraced => hown (((hs.after hafter).marked htraced).built _ _ hbuilt)⟩

theorem makes_complement (hb : trail.Accepts build) (hd : site.scope.document = trail.document)
    (hr : references node ⊆ trail.spelled) {draft : Property} (hdraft : draft.Flat trail.config) :
    trail.Makes (complement build site node draft) := by
  unfold complement
  refine (does_of_tells tells_applyValueKeywords).makes fun valued hvalued => ?_
  refine (does_applyCompositions hb hd hr).makes fun result hresult => ?_
  exact makes_addProperty (hdraft.refines (hvalued.trans hresult))

theorem makes_untypedEnumeration (hb : trail.Accepts build) (hd : site.scope.document = trail.document)
    (hr : references node ⊆ trail.spelled) : trail.Makes (untypedEnumeration build site node) := by
  unfold untypedEnumeration
  refine (does_of_tells Build.tells_presentProperty).makes fun draft hdraft => ?_
  refine (does_of_tells Keyword.detached_enumeration?.tells).makes fun found _ => makes_complement hb hd hr ?_
  cases found with
  | none => exact hdraft
  | some values => exact flat_inferEnumeration hdraft values

theorem makes_untypedConstant (hb : trail.Accepts build) (hd : site.scope.document = trail.document)
    (hr : references node ⊆ trail.spelled) (value : Json) : trail.Makes (untypedConstant build site node value) := by
  unfold untypedConstant
  exact (does_of_tells Build.tells_presentProperty).makes fun draft hdraft =>
    makes_complement hb hd hr ⟨hdraft.nested, hdraft.admitted, hdraft.own⟩

theorem makes_untyped (hb : trail.Accepts build) (hd : site.scope.document = trail.document)
    (hr : references node ⊆ trail.spelled) : trail.Makes (untyped build site node) := by
  unfold untyped
  exact (does_of_tells Build.tells_presentProperty).makes fun draft hdraft => makes_complement hb hd hr hdraft

theorem makes_typed (hb : trail.Accepts build) (hd : site.scope.document = trail.document)
    (hr : references node ⊆ trail.spelled) (word : String) : trail.Makes (typed build site node word) := by
  unfold typed
  split
  · exact makes_refuse
  · exact makes_object hb hd hr
  · exact (does_ofKind hb hd hr _).makes fun draft hdraft => makes_complement hb hd hr hdraft.1

theorem makes_referred {bound : Nat} (hb : ∀ target : Target, (trail.inside target).Accepts (property bound))
    (hd : site.scope.document = trail.document) {value : Json}
    (hmem : ∀ text, value = .string text → text ∈ trail.spelled) :
    trail.Makes (referred (property bound) site node value) := by
  unfold referred
  split
  · rename_i text
    intro s _ s' hs hrun
    obtain ⟨id, m, hrefer, hrest⟩ := Build.runs_bind.1 hrun
    obtain ⟨hafter, hown⟩ := makes_refer hb (by exact hd) (hmem text rfl) hs hrefer
    simp only at hrest
    split at hrest
    · obtain ⟨_, m', hcaption, hreturn⟩ := Build.runs_bind.1 hrest
      obtain ⟨rfl, rfl⟩ := Build.runs_pure.1 hreturn
      obtain ⟨hcaptioned, _⟩ := does_caption (hs.after hafter) hcaption
      refine ⟨hafter.trans hcaptioned, fun htraced => ?_⟩
      exact (hown htraced).deeds hcaptioned.deeds htraced ((hs.after hafter).marked htraced)
    · obtain ⟨rfl, rfl⟩ := Build.runs_pure.1 hrest
      exact ⟨hafter, hown⟩
  · exact makes_malformed

theorem makes_nodeProperty {bound : Nat} (hb : trail.Accepts (property bound))
    (hi : ∀ target : Target, (trail.inside target).Accepts (property bound))
    (hd : site.scope.document = trail.document) (hr : references node ⊆ trail.spelled) :
    trail.Makes (nodeProperty (property bound) site node) := by
  unfold nodeProperty
  refine does_normalize.makes fun normal hnormal => ?_
  have hr : references normal ⊆ trail.spelled := List.Subset.trans hnormal hr
  split
  · rename_i value hget
    refine makes_referred hi hd fun text htext => ?_
    subst htext
    exact hr (mem_references_of_get hget)
  · split
    · exact makes_typed hb hd hr _
    · exact makes_union hb hd hr
    · exact makes_malformed
    · split
      · exact makes_object hb hd hr
      · split
        · exact makes_untypedConstant hb hd hr _
        · split
          · exact makes_untypedEnumeration hb hd hr
          · exact makes_untyped hb hd hr

/-- **Every bound keeps the contract along every trail.** -/
theorem accepts_property : ∀ (bound : Nat) (trail : Trail), trail.Accepts (property bound)
  | 0, _ => ⟨fun _ _ _ _ _ _ _ _ hrun => absurd hrun Build.not_runs_throw, fun hrun => absurd hrun Build.not_runs_throw⟩
  | bound + 1, trail => by
    refine ⟨fun site node hd hr => ?_, fun hrun => ?_⟩
    · have hinside := fun target => accepts_property bound (trail.inside target)
      exact makes_nodeProperty (accepts_property bound trail) hinside hd hr
    · obtain ⟨_, hpurpose⟩ := (makes_property (bound + 1) _ trivial).1 _ _ hrun
      exact congrArg Property.Purpose.required hpurpose

end Trail
end SchemaTypes.Building
