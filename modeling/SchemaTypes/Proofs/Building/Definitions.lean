import SchemaTypes.Building.Nodes
import SchemaTypes.Proofs.Building.Fills
/-!
# Definitions and nodes, whatever comes of them

A definition's node is built in a scene of its own, of the document that holds it.  A reference broken there lies
behind the one that led there (`Ends.inside`).  `accepts_property` closes the recursion.
-/
namespace SchemaTypes.Building
namespace Scene

variable {scene : Scene} {s s' : Session} {node : Json} {property : Property} {build : Builder} {site : Site}
  {target : Target} {reference : String} {definition : PropertyId} {key : DefinitionKey}

/-- The scene of a definition's node. -/
def inside (scene : Scene) (target : Target) : Scene :=
  { scene with document := target.key.document, spelled := references target.node }

/-- What happens while a definition is built, happens behind the reference to it. -/
theorem Ends.inside {α : Type} {x : Build α} {Q : α → Session → Prop} (hmem : reference ∈ scene.spelled)
    (htarget : targetIn? scene.documents scene.document reference = some target)
    (h : (scene.inside target).Ends s x Q) : scene.Ends s x Q := by
  intro hs
  obtain ⟨hok, herror⟩ := h ⟨hs.documents, hs.closed, hs.inStep⟩
  refine ⟨hok, fun halt s' hhalts => ?_⟩
  obtain ⟨hwrites, hexplains⟩ := herror halt s' hhalts
  refine ⟨hwrites, ?_⟩
  unfold Explains at hexplains ⊢
  split
  · exact .behind hmem htarget hexplains
  · trivial

theorem reads_locate {scope : Scope} (hd : scope.document = scene.document)
    (hbroken : targetIn? scene.documents scene.document reference = none →
      Broken scene.documents scene.document scene.spelled reference) :
    scene.Reads s (locate scope reference) fun target =>
      targetIn? scene.documents scene.document reference = some target := by
  refine fun hs => Reads.after (Build.runs_get.2 ⟨rfl, rfl⟩) ?_ hs
  rw [target?_eq, hs.documents, hd]
  split
  · rename_i found hfound
    exact reads_pure hfound
  · rename_i hnone
    exact reads_refuse (hbroken hnone)

/-! ## Placeholders and copies -/

theorem yields_bind {placeholder : PropertyId} : scene.Yields s (bind definition placeholder) fun _ _ => True := by
  unfold bind
  refine Yields.after (Build.runs_getProperty.2 ⟨rfl, rfl⟩) ?_
  refine Yields.after (Build.runs_read.2 ⟨rfl, rfl⟩) ?_
  exact yields_modify (.bind definition placeholder) (asFinished_of_types rfl) trivial

theorem yields_complete (h : s.graph.HasProperty definition) :
    scene.Yields s (complete key definition) fun _ _ => True := by
  unfold complete
  have hbuilt : s.KnowsDefinition (.built definition) := h
  refine Yields.after (Build.runs_get.2 ⟨rfl, rfl⟩) ?_
  refine (yields_setDefinition hbuilt).bind fun _ m _ _ => ?_
  split
  · exact yields_forM fun placeholder _ t _ => yields_bind
  · exact yields_pure trivial

theorem yields_copy : scene.Yields s (copy definition site) fun id s' => s'.Delivers site.required id := by
  unfold copy
  refine yields_of_stands fun hs => ?_
  refine Yields.after (Build.runs_getProperty.2 ⟨rfl, rfl⟩) ?_
  split
  · exact yields_refuse trivial
  · rename_i identifier _
    refine Yields.after (Build.runs_read.2 ⟨rfl, rfl⟩) ?_
    exact yields_deliver ((hs.closed.properties definition).copied site.name identifier site.required _)
      (inStep_copied (hs.inStep definition) site.name identifier site.required) rfl

theorem yields_placeholder {type : Option TypeId} {waiting : List PropertyId}
    (h : s.KnowsDefinition (.inProgress type waiting)) :
    scene.Yields s (placeholder key site reference type waiting) fun id s' => s'.Delivers site.required id := by
  unfold placeholder
  cases type with
  | some type =>
    exact (reads_instanceProperty (h.1 type rfl)).yieldsThen fun property hproperty =>
      yields_deliver hproperty.knows hproperty.inStep hproperty.required
  | none =>
    refine reads_presentProperty.yieldsThen fun property hproperty => ?_
    have hdeferred : scene.Draft s site.required false (property.addCheck (.deferred reference)) :=
      hproperty.addLeaf ⟨rfl, fun _ => rfl, rfl, rfl⟩
    refine (yields_deliver hdeferred.knows hdeferred.inStep hdeferred.required).bind fun id m hm hadded => ?_
    refine (yields_setDefinition ?_).bind fun _ t ht hsame => yields_pure ?_
    · refine ⟨fun _ hnone => (nomatch hnone), fun other hother => ?_⟩
      rcases List.mem_append.1 hother with hother | hother
      · exact (h.2 other hother).grows hm.grows
      · exact List.mem_singleton.1 hother ▸ hadded.hasProperty
    · exact ⟨hsame ▸ hadded.hasProperty, hsame ▸ hadded.required, hsame ▸ hadded.unclaimed⟩

/-! ## Definitions -/

theorem yields_define (hb : (scene.inside target).Accepts build) (hmem : reference ∈ scene.spelled)
    (htarget : targetIn? scene.documents scene.document reference = some target) :
    scene.Yields s (define build target) fun definition s' => s'.graph.HasProperty definition := by
  unfold define
  simp only
  split
  -- The type of an object is reserved first, so the bracket is around the whole definition.
  · rw [bind_map_left]
    refine yields_bracket ends_reserveFor fun type m htype => ?_
    refine Ends.bind (yields_setDefinition ?_) fun _ t ht hbegun => ?_
    · exact ⟨fun id heq => by cases heq; exact htype, fun _ hid => absurd hid List.not_mem_nil⟩
    · refine Ends.bind (Ends.inside hmem htarget
        (ends_objectInto hb rfl (List.Subset.refl _) (htype.grows ht.grows))) fun definition u _ hbuilt => ?_
      refine Ends.bind (yields_complete hbuilt.2.1) fun _ v hv hcompleted => ?_
      refine Ends.imp (yields_pure (P := fun definition v => v.graph.HasProperty definition)
        (hbuilt.2.1.grows hv.grows)) fun a w hw => ?_
      exact ⟨(hbegun.1.finishedOne hbuilt.1).trans fun id => (hw.1 id).trans (hcompleted.1 id), hw.2⟩
  · rw [pure_bind]
    refine (yields_setDefinition ?_).bind fun _ m _ _ => ?_
    · exact ⟨fun _ hnone => (nomatch hnone), fun _ hid => absurd hid List.not_mem_nil⟩
    · refine Yields.bind (Ends.inside hmem htarget (hb m _ target.node (by exact rfl) (List.Subset.refl _)))
        fun definition t _ hbuilt => ?_
      exact (yields_complete hbuilt.1).bind fun _ u hu _ => yields_pure (hbuilt.1.grows hu.grows)

theorem yields_refer (hb : ∀ target : Target, (scene.inside target).Accepts build)
    (hd : site.scope.document = scene.document) (hmem : reference ∈ scene.spelled) :
    scene.Yields s (refer build site reference) fun id s' => s'.Delivers site.required id := by
  unfold refer
  refine (reads_locate hd (.here hmem)).yieldsThen fun target htarget => ?_
  refine yields_of_stands fun hs => ?_
  refine Yields.after (Build.runs_get.2 ⟨rfl, rfl⟩) ?_
  split
  · exact yields_copy
  · rename_i type waiting hpending
    exact yields_placeholder (hs.closed.definitions _ _ hpending)
  · exact (yields_define (hb target) hmem htarget).bind fun definition m _ _ => yields_copy

/-! ## Nodes -/

theorem draft_inferEnumeration {required strict : Bool} (h : scene.Draft s required strict property)
    (values : List Json) : scene.Draft s required strict (inferEnumeration property values) := by
  unfold inferEnumeration
  simp only
  split
  · exact h.relabel _
  · refine h.addDecorator fun id heq => ?_
    cases heq

theorem yields_untypedEnumeration (hb : scene.Accepts build) (hd : site.scope.document = scene.document)
    (hr : references node ⊆ scene.spelled) :
    scene.Yields s (untypedEnumeration build site node) fun id s' => s'.Delivers site.required id := by
  unfold untypedEnumeration
  refine reads_presentProperty.yieldsThen fun property hproperty => ?_
  refine reads_enumeration?.yieldsThen fun found _ => yields_addCompleted hb hd hr ?_
  cases found with
  | none => exact hproperty
  | some values => exact draft_inferEnumeration hproperty values

theorem yields_untypedConstant (hb : scene.Accepts build) (hd : site.scope.document = scene.document)
    (hr : references node ⊆ scene.spelled) (value : Json) :
    scene.Yields s (untypedConstant build site node value) fun id s' => s'.Delivers site.required id := by
  unfold untypedConstant
  exact reads_presentProperty.yieldsThen fun property hproperty =>
    yields_addCompleted hb hd hr (hproperty.relabel _)

theorem yields_untyped (hb : scene.Accepts build) (hd : site.scope.document = scene.document)
    (hr : references node ⊆ scene.spelled) :
    scene.Yields s (untyped build site node) fun id s' => s'.Delivers site.required id := by
  unfold untyped
  exact reads_presentProperty.yieldsThen fun property hproperty => yields_addCompleted hb hd hr hproperty

theorem yields_typed (hb : scene.Accepts build) (hd : site.scope.document = scene.document)
    (hr : references node ⊆ scene.spelled) (word : String) :
    scene.Yields s (typed build site node word) fun id s' => s'.Delivers site.required id := by
  unfold typed
  split
  · exact yields_refuse trivial
  · exact yields_object hb hd hr
  · exact (yields_ofKind hb hd hr _).bind fun property m _ hproperty => yields_addCompleted hb hd hr hproperty

theorem yields_referred (hb : ∀ target : Target, (scene.inside target).Accepts build)
    (hd : site.scope.document = scene.document) {value : Json}
    (hmem : ∀ text, value = .string text → text ∈ scene.spelled) :
    scene.Yields s (referred build site node value) fun id s' => s'.Delivers site.required id := by
  unfold referred
  split
  · rename_i text
    have hrefer : scene.Yields s (refer build { site with merged := false } text) fun id s' =>
        s'.Delivers site.required id := yields_refer hb hd (hmem text rfl)
    refine hrefer.bind fun id m _ hid => ?_
    simp only
    split
    · rename_i description _
      refine Yields.bind (P := fun _ t => t.Delivers site.required id)
        (yields_modify (.caption id description) (asFinished_of_types rfl) ?_) fun _ t _ hcaptioned =>
          yields_pure hcaptioned
      refine ⟨hid.hasProperty.grows (Session.grows_modifyProperty _ _ _), ?_,
        hid.unclaimed.modifyProperty id fun _ _ hv => hv⟩
      change ((m.graph.modifyProperty id _).property id).required = site.required
      rw [Session.property_modifyProperty_eq]
      split
      · exact hid.required
      · exact hid.required
    · exact yields_pure hid
  · exact yields_malformed

theorem yields_nodeProperty (hb : scene.Accepts build) (hi : ∀ target : Target, (scene.inside target).Accepts build)
    (hd : site.scope.document = scene.document) (hr : references node ⊆ scene.spelled) :
    scene.Yields s (nodeProperty build site node) fun id s' => s'.Delivers site.required id := by
  unfold nodeProperty
  refine reads_normalize.yieldsThen fun normal hnormal => ?_
  have hr : references normal ⊆ scene.spelled := List.Subset.trans hnormal hr
  split
  · rename_i value hget
    refine yields_referred hi hd fun text htext => ?_
    subst htext
    exact hr (mem_references_of_get hget)
  · split
    · exact yields_typed hb hd hr _
    · exact yields_union hb hd hr
    · exact yields_malformed
    · split
      · exact yields_object hb hd hr
      · split
        · exact yields_untypedConstant hb hd hr _
        · split
          · exact yields_untypedEnumeration hb hd hr
          · exact yields_untyped hb hd hr

/-- **Every bound keeps the contract in every scene.** -/
theorem accepts_property : ∀ (bound : Nat) (scene : Scene), scene.Accepts (Building.property bound)
  | 0, scene => fun _ _ _ _ _ => by
    have hexhausted : scene.Explains .exhausted := trivial
    exact (reads_throw (q := fun _ => False) hexhausted).yields fun _ hfalse => hfalse.elim
  | bound + 1, scene => fun _ _ _ hd hr =>
    yields_nodeProperty (accepts_property bound scene)
      (fun target => accepts_property bound (scene.inside target)) hd hr

end Scene
end SchemaTypes.Building
