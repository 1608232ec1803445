import SchemaTypes.Building.Kinds
import SchemaTypes.Proofs.Building.Outcomes
/-!
# Drafts

A property is a draft from where it is made until it is added to the graph: in step, with ids that have been handed
out, and marked as its site asks.  Before its presence check it is raw.  Keywords take drafts to drafts.  Most of them
only read the session, so these contracts keep the draft at the session they start from.
-/
namespace SchemaTypes

/-- A check that leads nowhere, and to which neither presence nor null is anything special. -/
structure Check.IsLeaf (check : Check) : Prop where
  required : check.isRequired = false
  null : ∀ settles, check.withNull settles = check
  children : check.children = []
  types : check.types = []

/-- A property that is there, required or not as it was asked for, and nobody's yet. -/
structure Session.Delivers (s : Session) (required : Bool) (id : PropertyId) : Prop where
  hasProperty : s.graph.HasProperty id
  required : (s.graph.property id).required = required
  unclaimed : s.graph.Unclaimed id

/-- Changing properties that lead to nothing new takes no property for anybody. -/
theorem Graph.Unclaimed.modifyProperty {graph : Graph} {id : PropertyId} (h : graph.Unclaimed id)
    (changed : PropertyId) {f : Property → Property}
    (hf : ∀ property, ∀ v ∈ (f property).validators.toList, v ∈ property.validators.toList) :
    (graph.modifyProperty changed f).Unclaimed id := by
  refine ⟨h.members, h.typeChecks, fun other v hv => ?_⟩
  rw [Session.property_modifyProperty_eq] at hv
  split at hv
  · exact h.checks other v (hf _ v hv)
  · exact h.checks other v hv

namespace Building
namespace Scene

structure Draft (scene : Scene) (s : Session) (required strict : Bool) (property : Property) : Prop where
  required : property.required = required
  strict : property.strict = strict
  relaxed : property.relaxed = false
  inStep : property.InStep scene.allowed
  knows : s.graph.Knows property

/-- A property that lacks its presence check. -/
structure Raw (scene : Scene) (s : Session) (required : Bool) (property : Property) : Prop where
  regular : ∀ v ∈ property.validators.toList, v.IsRegular (scene.allowed && !required)
  required : property.required = required
  strict : property.strict = false
  relaxed : property.relaxed = false
  knows : s.graph.Knows property

variable {scene : Scene} {s s' : Session} {name keyword : String} {node : Json} {property : Property}
  {required strict : Bool} {check : Check}

/-- A property that is known and in step is delivered by adding it. -/
theorem yields_deliver (hknown : s.graph.Knows property) (hstep : property.InStep scene.allowed)
    (hrequired : property.required = required) :
    scene.Yields s (Build.addProperty property) fun id s' => s'.Delivers required id := by
  refine yields_of_stands fun hs => ends_of_runs (Build.runs_addProperty.2 ⟨rfl, rfl⟩) (.single (.add hknown hstep))
    ⟨asFinished_of_types rfl, Session.hasProperty_addProperty _ _, ?_, hs.closed.unclaimed_addProperty hknown⟩
  exact (congrArg Property.required (Graph.property_addProperty _ _)).trans hrequired

theorem Draft.writes (h : scene.Draft s required strict property) (hwrites : Session.Writes scene.allowed s s') :
    scene.Draft s' required strict property :=
  ⟨h.required, h.strict, h.relaxed, h.inStep, h.knows.grows hwrites.grows⟩

theorem Draft.settlesNull (h : scene.Draft s required strict property) :
    property.settlesNull scene.allowed = (scene.allowed && !required && !strict) := by
  unfold Property.settlesNull
  rw [h.required, h.strict, h.relaxed, Bool.not_false, Bool.and_true]

theorem Draft.addCheck (h : scene.Draft s required strict property) (hrequired : check.isRequired = false)
    (hnull : check.withNull (scene.allowed && !required && !strict) = check) (hknown : s.graph.KnowsCheck check) :
    scene.Draft s required strict (property.addCheck check) :=
  ⟨h.required, h.strict, h.relaxed, h.inStep.addCheck hrequired (h.settlesNull ▸ hnull), h.knows.addCheck hknown⟩

theorem Draft.addLeaf (h : scene.Draft s required strict property) (hleaf : check.IsLeaf) :
    scene.Draft s required strict (property.addCheck check) :=
  h.addCheck hleaf.required (hleaf.null _) (Graph.knowsCheck_of_nil hleaf.children hleaf.types)

theorem Draft.relabel (h : scene.Draft s required strict property) (label : Option TypeLabel) :
    scene.Draft s required strict { property with label } :=
  ⟨h.required, h.strict, h.relaxed, h.inStep, ⟨h.knows.checks, h.knows.nested, h.knows.decorators⟩⟩

theorem inStep_addDecorator {allowed : Bool} (h : property.InStep allowed) (decorator : Decorator) :
    (property.addDecorator decorator).InStep allowed := by
  unfold Property.addDecorator
  split
  · exact h
  · exact h

/-- The marks of a property and its validators are not its decorators' concern. -/
theorem addDecorator_marks (property : Property) (decorator : Decorator) :
    (property.addDecorator decorator).required = property.required ∧
      (property.addDecorator decorator).strict = property.strict ∧
      (property.addDecorator decorator).relaxed = property.relaxed ∧
      (property.addDecorator decorator).validators = property.validators := by
  unfold Property.addDecorator
  split
  · exact ⟨rfl, rfl, rfl, rfl⟩
  · exact ⟨rfl, rfl, rfl, rfl⟩

theorem Draft.addDecorator (h : scene.Draft s required strict property) {decorator : Decorator}
    (hdecorator : ∀ id, decorator = .instantiates id → s.graph.HasType id) :
    scene.Draft s required strict (property.addDecorator decorator) := by
  obtain ⟨hrequired, hstrict, hrelaxed, _⟩ := addDecorator_marks property decorator
  exact ⟨hrequired.trans h.required, hstrict.trans h.strict, hrelaxed.trans h.relaxed,
    inStep_addDecorator h.inStep decorator, h.knows.addDecorator hdecorator⟩

/-! ## Raw properties -/

theorem Raw.writes (h : scene.Raw s required property) (hwrites : Session.Writes scene.allowed s s') :
    scene.Raw s' required property :=
  ⟨h.regular, h.required, h.strict, h.relaxed, h.knows.grows hwrites.grows⟩

/-- With the presence check, where it is due, a raw property is a draft. -/
theorem Raw.present (h : scene.Raw s required property) :
    scene.Draft s required false (if required then property.addCheck .required else property) := by
  have hneeds : property.needsPresence = required := by
    unfold Property.needsPresence
    rw [h.required, h.strict, h.relaxed, Bool.or_false, Bool.not_false, Bool.and_true]
  have hsettles : property.settlesNull scene.allowed = (scene.allowed && !required) := by
    unfold Property.settlesNull
    rw [h.required, h.strict, h.relaxed, Bool.not_false, Bool.and_true, Bool.and_true]
  have hstep : (if property.needsPresence then property.addCheck .required else property).InStep scene.allowed :=
    Property.inStep_of_regular fun v hv => hsettles.symm ▸ h.regular v hv
  rw [hneeds] at hstep
  refine ⟨?_, ?_, ?_, hstep, ?_⟩
  · split
    · exact h.required
    · exact h.required
  · split
    · exact h.strict
    · exact h.strict
  · split
    · exact h.relaxed
    · exact h.relaxed
  · split
    · exact h.knows.addCheck (Graph.knowsCheck_of_nil rfl rfl)
    · exact h.knows

theorem reads_newProperty : scene.Reads s (Build.newProperty name required) (scene.Raw s required) := by
  unfold Build.newProperty
  split
  · refine reads_pure ⟨fun v hv => absurd hv List.not_mem_nil, rfl, rfl, rfl, ?_⟩
    exact Graph.knows_of_empty rfl rfl rfl
  · exact reads_refuse trivial

theorem reads_presentProperty {site : Site} :
    scene.Reads s (Build.presentProperty site) (scene.Draft s site.required false) := by
  unfold Build.presentProperty
  exact reads_newProperty.bind fun property hraw => reads_pure hraw.present

theorem reads_allowsNull :
    scene.Reads s (Build.allowsNull required) fun allowed => allowed = (scene.allowed && !required) :=
  reads_of_runs (Build.runs_allowsNull.2 ⟨rfl, rfl⟩) rfl

/-! ## Keywords -/

theorem reads_count? : scene.Reads s (Keyword.count? name node keyword) fun _ => True := by
  unfold Keyword.count?
  split
  · exact reads_pure trivial
  · split
    · exact reads_pure trivial
    · exact reads_malformed

theorem reads_number? : scene.Reads s (Keyword.number? name node keyword) fun _ => True := by
  unfold Keyword.number?
  split
  · exact reads_pure trivial
  · exact reads_pure trivial
  · exact reads_malformed

theorem reads_flag : scene.Reads s (Keyword.flag name node keyword) fun _ => True := by
  unfold Keyword.flag
  split
  · exact reads_pure trivial
  · exact reads_pure trivial
  · exact reads_malformed

theorem reads_members? : scene.Reads s (Keyword.members? name node keyword) fun found =>
    ∀ member ∈ found.getD [], references member.2 ⊆ references node := by
  unfold Keyword.members?
  split
  · exact reads_pure fun member hmember => absurd hmember List.not_mem_nil
  · rename_i members hget
    exact reads_pure fun member hmember =>
      List.Subset.trans (references_member hmember) (references_subset_get hget)
  · exact reads_malformed

theorem reads_strings {reason : String} {values : List Json} :
    scene.Reads s (Keyword.strings name reason values) fun _ => True := by
  unfold Keyword.strings
  refine (reads_mapM (q := fun _ => True) fun value _ => ?_).imp fun _ _ => trivial
  split
  · exact reads_pure trivial
  · exact reads_malformed

theorem reads_requiredNames : scene.Reads s (Keyword.requiredNames name node) fun _ => True := by
  unfold Keyword.requiredNames
  split
  · exact reads_pure trivial
  · exact reads_strings
  · exact reads_malformed

theorem reads_pattern {source : String} : scene.Reads s (Keyword.pattern name source) fun _ => True := by
  unfold Keyword.pattern
  split
  · exact reads_pure trivial
  · exact reads_refuse trivial

theorem reads_enumeration? : scene.Reads s (Keyword.enumeration? name node) fun _ => True := by
  unfold Keyword.enumeration?
  split
  · exact reads_pure trivial
  · exact reads_refuse trivial
  · exact reads_pure trivial
  · exact reads_malformed

theorem reads_branches? {combinator : Combinator} :
    scene.Reads s (Keyword.branches? name node combinator) fun found =>
      ∀ nodes, found = some nodes → ∀ inner ∈ nodes, references inner ⊆ references node := by
  unfold Keyword.branches?
  split
  · exact reads_pure fun _ hnone => nomatch hnone
  · rename_i inner hget
    refine reads_pure fun found heq other hother => ?_
    cases heq
    rw [List.mem_singleton.1 hother]
    exact references_subset_get hget
  · rename_i nodes _ hget
    refine reads_pure fun found heq inner hinner => ?_
    cases heq
    refine List.Subset.trans ?_ (references_subset_get hget)
    rw [references]
    exact references_subset_items hinner
  · exact reads_malformed

theorem reads_normalize : scene.Reads s (Keyword.normalize name node) fun normal =>
    references normal ⊆ references node := by
  unfold Keyword.normalize
  split
  · exact reads_pure (List.Subset.refl _)
  · refine reads_pure ?_
    rw [references_ofBool]
    exact List.nil_subset _
  · exact reads_malformed

/-! ## Keywords every property has -/

theorem draft_describe (h : scene.Draft s required strict property) :
    scene.Draft s required strict (describe property node) := by
  unfold describe
  split
  · exact ⟨h.required, h.strict, h.relaxed, h.inStep, ⟨h.knows.checks, h.knows.nested, h.knows.decorators⟩⟩
  · exact h

theorem draft_constant (h : scene.Draft s required strict property) :
    scene.Draft s required strict (constant property node) := by
  unfold constant
  split
  · exact h.addLeaf ⟨rfl, fun _ => rfl, rfl, rfl⟩
  · exact h

/-- A typed enumeration makes the draft strict, and stamps it anew. -/
theorem reads_enumerate (h : scene.Draft s required false property) :
    scene.Reads s (enumerate property node required) fun result =>
      ∃ strict, scene.Draft s required strict result := by
  unfold enumerate
  refine reads_enumeration?.bind fun found _ => ?_
  cases found with
  | none => exact reads_pure ⟨false, h⟩
  | some values =>
    refine reads_allowsNull.bind fun allowed hallowed => ?_
    subst hallowed
    have hadded : scene.Draft s required false
        (property.addCheck (.enumeration values (scene.allowed && !required && !values.any Json.isNull))) := by
      refine h.addCheck rfl ?_ (Graph.knowsCheck_of_nil rfl rfl)
      rw [Bool.not_false, Bool.and_true]
      rfl
    simp only
    split
    -- The flag just given is that of a property that is not strict; the stamp gives it anew.
    · refine Reads.after (Build.runs_read.2 ⟨rfl, rfl⟩) (reads_pure ⟨true, rfl, rfl, hadded.relaxed, ?_, ?_⟩)
      · exact Property.inStep_stampRequired (by exact hadded.inStep.priority) required scene.allowed
      · refine Graph.Knows.stampRequired ?_ required _
        exact ⟨hadded.knows.checks, hadded.knows.nested, hadded.knows.decorators⟩
    · exact reads_pure ⟨false, hadded⟩

theorem reads_filterEntry {entry : Json} : scene.Reads s (filterEntry property entry) fun _ => True := by
  unfold filterEntry
  split
  · exact reads_pure trivial
  · split
    · exact reads_pure trivial
    · exact reads_malformed
  · exact reads_malformed

theorem reads_applyFilter {entry : Json} (h : scene.Draft s required strict property) :
    scene.Reads s (applyFilter property entry) (scene.Draft s required strict) := by
  unfold applyFilter
  refine reads_filterEntry.bind fun found _ => ?_
  refine Reads.after (Build.runs_read.2 ⟨rfl, rfl⟩) ?_
  split
  · exact reads_refuse trivial
  · split
    · exact reads_pure (h.addLeaf ⟨rfl, fun _ => rfl, rfl, rfl⟩)
    · exact reads_refuse trivial

theorem reads_applyFilters (h : scene.Draft s required strict property) :
    scene.Reads s (applyFilters property node) (scene.Draft s required strict) := by
  unfold applyFilters
  split
  · exact reads_pure h
  · exact reads_foldlM h fun entry _ property hproperty => reads_applyFilter hproperty
  · exact reads_applyFilter h

theorem reads_applyDefault (h : scene.Draft s required strict property) :
    scene.Reads s (applyDefault property node) (scene.Draft s required strict) := by
  unfold applyDefault
  split
  · exact reads_pure h
  · split
    · refine reads_pure ⟨h.required, h.strict, h.relaxed, h.inStep, ?_⟩
      exact ⟨h.knows.checks, h.knows.nested, h.knows.decorators⟩
    · exact reads_refuse trivial

theorem reads_applyValueKeywords (h : scene.Draft s required false property) :
    scene.Reads s (applyValueKeywords property node required) fun result =>
      ∃ strict, scene.Draft s required strict result := by
  unfold applyValueKeywords
  refine (reads_enumerate (draft_describe h)).bind fun property hproperty => ?_
  obtain ⟨strict, hproperty⟩ := hproperty
  refine (reads_applyFilters (draft_constant hproperty)).bind fun property hproperty => ?_
  exact (reads_applyDefault hproperty).imp fun property hproperty => ⟨strict, hproperty⟩

/-! ## Strings and numbers -/

theorem reads_refuseFormat : scene.Reads s (refuseFormat property node) fun _ => True := by
  unfold refuseFormat
  split
  · exact reads_pure trivial
  · exact reads_refuse trivial
  · exact reads_refuse trivial

theorem reads_addPattern (h : scene.Draft s required strict property) :
    scene.Reads s (addPattern property node) (scene.Draft s required strict) := by
  unfold addPattern
  split
  · exact reads_pure h
  · exact reads_pattern.bind fun pattern _ => reads_pure (h.addLeaf ⟨rfl, fun _ => rfl, rfl, rfl⟩)
  · exact reads_malformed

theorem reads_addCount {check : Nat → Check} (hcheck : ∀ n, (check n).IsLeaf)
    (h : scene.Draft s required strict property) :
    scene.Reads s (addCount property node keyword check) (scene.Draft s required strict) := by
  unfold addCount
  refine reads_count?.bind fun found _ => ?_
  cases found with
  | none => exact reads_pure h
  | some n => exact reads_pure (h.addLeaf (hcheck n))

theorem reads_addStringChecks (h : scene.Draft s required strict property) :
    scene.Reads s (addStringChecks property node) (scene.Draft s required strict) := by
  unfold addStringChecks
  refine reads_refuseFormat.bind fun _ _ => ?_
  refine (reads_addPattern h).bind fun property hproperty => ?_
  refine (reads_addCount (fun _ => ⟨rfl, fun _ => rfl, rfl, rfl⟩) hproperty).bind fun property hproperty => ?_
  exact reads_addCount (fun _ => ⟨rfl, fun _ => rfl, rfl, rfl⟩) hproperty

theorem reads_addBound {exclusiveKeyword : String} {check : Number → Bool → Check}
    (hcheck : ∀ limit exclusive, (check limit exclusive).IsLeaf) (h : scene.Draft s required strict property) :
    scene.Reads s (addBound property node keyword exclusiveKeyword check) (scene.Draft s required strict) := by
  unfold addBound
  refine reads_number?.bind fun found _ => ?_
  cases found with
  | none =>
    simp only
    split
    · exact reads_pure h
    · exact reads_pure h
    · exact reads_pure (h.addLeaf (hcheck _ _))
    · exact reads_malformed
  | some limit =>
    simp only
    split
    · exact reads_pure (h.addLeaf (hcheck _ _))
    · exact reads_pure (h.addLeaf (hcheck _ _))
    · exact reads_pure ((h.addLeaf (hcheck _ _)).addLeaf (hcheck _ _))
    · exact reads_malformed

theorem reads_addNumberChecks (h : scene.Draft s required strict property) :
    scene.Reads s (addNumberChecks property node) (scene.Draft s required strict) := by
  unfold addNumberChecks
  refine (reads_addBound (fun _ _ => ⟨rfl, fun _ => rfl, rfl, rfl⟩) h).bind fun property hproperty => ?_
  refine (reads_addBound (fun _ _ => ⟨rfl, fun _ => rfl, rfl, rfl⟩) hproperty).bind fun property hproperty => ?_
  refine reads_number?.bind fun found _ => ?_
  cases found with
  | none => exact reads_pure hproperty
  | some divisor => exact reads_pure (hproperty.addLeaf ⟨rfl, fun _ => rfl, rfl, rfl⟩)

/-! ## Builders -/

/-- What a builder owes for nodes of this document that spell no other references than the scene's. -/
def Accepts (scene : Scene) (build : Builder) : Prop :=
  ∀ (s : Session) (site : Site) (node : Json), site.scope.document = scene.document →
    references node ⊆ scene.spelled → scene.Yields s (build site node) fun id s' => s'.Delivers site.required id

variable {build : Builder} {scope : Scope} {site : Site}

theorem yields_nested (hb : scene.Accepts build) (hd : scope.document = scene.document)
    (hr : references node ⊆ scene.spelled) :
    scene.Yields s (Build.nested build scope name node) fun id s' => s'.graph.HasProperty id := by
  unfold Build.nested
  refine (hb s _ node hd hr).bind fun id m _ hid => ?_
  refine (yields_relax hid.required).bind fun _ t ht _ => ?_
  exact yields_pure (hid.1.grows ht.grows)

/-! ## Arrays -/

/-- A check of the items may lead to properties that have just been built. -/
theorem Draft.addItemCheck (h : scene.Draft s required strict property) (hrequired : check.isRequired = false)
    (hnull : ∀ settles, check.withNull settles = check) (htypes : check.types = [])
    (hchildren : ∀ id ∈ check.children, s.graph.HasProperty id) :
    scene.Draft s required strict (property.addCheck check) :=
  h.addCheck hrequired (hnull _) (Graph.knowsCheck_of_children hchildren htypes)

theorem yields_addTuple (hb : scene.Accepts build) (hd : scope.document = scene.document) {items : List Json}
    (hitems : ∀ item ∈ items, references item ⊆ scene.spelled) (hr : references node ⊆ scene.spelled)
    (h : scene.Draft s required strict property) :
    scene.Yields s (addTuple build scope property items node) fun result s' =>
      scene.Draft s' required strict result := by
  unfold addTuple
  have hpositions : scene.Yields s (items.zipIdx.mapM fun x =>
      Build.nested build scope ("tuple item #" ++ toString x.2 ++ " of array " ++ property.name) x.1)
      fun ids s' => ∀ id ∈ ids, s'.graph.HasProperty id :=
    yields_mapM (fun _ _ _ hm hid => hid.grows hm.grows) fun x hx _ _ =>
      yields_nested hb hd (hitems x.1 (List.fst_mem_of_mem_zipIdx hx))
  refine hpositions.bind fun positions m hm hids => ?_
  have htuple : scene.Draft m required strict (property.addCheck (.tuple positions)) :=
    (h.writes hm).addItemCheck rfl (fun _ => rfl) rfl hids
  simp only
  split
  · exact yields_pure htuple
  · exact yields_pure htuple
  · exact yields_pure (htuple.addLeaf ⟨rfl, fun _ => rfl, rfl, rfl⟩)
  · rename_i members hget
    refine (yields_nested hb hd (List.Subset.trans (references_subset_get hget) hr)).bind fun item t ht hid => ?_
    exact yields_pure ((htuple.writes ht).addItemCheck rfl (fun _ => rfl) rfl (List.forall_mem_singleton.2 hid))
  · exact yields_malformed

theorem yields_addItems (hb : scene.Accepts build) (hd : scope.document = scene.document)
    (hr : references node ⊆ scene.spelled) (h : scene.Draft s required strict property) :
    scene.Yields s (addItems build scope property node) fun result s' => scene.Draft s' required strict result := by
  unfold addItems
  split
  · exact yields_pure h
  · rename_i items hget
    refine yields_addTuple hb hd (fun item hitem => ?_) hr h
    refine List.Subset.trans ?_ (List.Subset.trans (references_subset_get hget) hr)
    rw [references]
    exact references_subset_items hitem
  · rename_i item _ hget
    refine (yields_nested hb hd (List.Subset.trans (references_subset_get hget) hr)).bind fun id m hm hid => ?_
    exact yields_pure ((h.writes hm).addItemCheck rfl (fun _ => rfl) rfl (List.forall_mem_singleton.2 hid))

theorem yields_addContains (hb : scene.Accepts build) (hd : scope.document = scene.document)
    (hr : references node ⊆ scene.spelled) (h : scene.Draft s required strict property) :
    scene.Yields s (addContains build scope property node) fun result s' =>
      scene.Draft s' required strict result := by
  unfold addContains
  split
  · exact yields_pure h
  · rename_i item hget
    refine (yields_nested hb hd (List.Subset.trans (references_subset_get hget) hr)).bind fun id m hm hid => ?_
    exact yields_pure ((h.writes hm).addItemCheck rfl (fun _ => rfl) rfl (List.forall_mem_singleton.2 hid))

theorem yields_addArrayChecks (hb : scene.Accepts build) (hd : scope.document = scene.document)
    (hr : references node ⊆ scene.spelled) (h : scene.Draft s required strict property) :
    scene.Yields s (addArrayChecks build scope property node) fun result s' =>
      scene.Draft s' required strict result := by
  unfold addArrayChecks
  refine (reads_addCount (fun _ => ⟨rfl, fun _ => rfl, rfl, rfl⟩) h).yieldsThen fun property hproperty => ?_
  refine (reads_addCount (fun _ => ⟨rfl, fun _ => rfl, rfl, rfl⟩) hproperty).yieldsThen fun property hproperty => ?_
  refine reads_flag.yieldsThen fun unique _ => ?_
  have hunique : scene.Draft s required strict (if unique then property.addCheck .uniqueItems else property) := by
    split
    · exact hproperty.addLeaf ⟨rfl, fun _ => rfl, rfl, rfl⟩
    · exact hproperty
  refine (yields_addItems hb hd hr hunique).bind fun property m _ hproperty => ?_
  exact yields_addContains hb hd hr hproperty

/-! ## Properties of a declared kind -/

theorem yields_addKindChecks (hb : scene.Accepts build) (hd : scope.document = scene.document)
    (hr : references node ⊆ scene.spelled) (h : scene.Draft s required strict property) (kind : Kind) :
    scene.Yields s (addKindChecks build scope kind property node) fun result s' =>
      scene.Draft s' required strict result := by
  unfold addKindChecks
  split
  · exact (reads_addStringChecks h).yields fun _ hresult => hresult
  · exact (reads_addNumberChecks h).yields fun _ hresult => hresult
  · exact (reads_addNumberChecks h).yields fun _ hresult => hresult
  · exact yields_addArrayChecks hb hd hr h
  · exact yields_pure h
  · exact yields_pure h
  · exact yields_pure h

theorem yields_ofKind (hb : scene.Accepts build) (hd : site.scope.document = scene.document)
    (hr : references node ⊆ scene.spelled) (kind : Kind) :
    scene.Yields s (ofKind build site node kind) fun property s' => scene.Draft s' site.required false property := by
  unfold ofKind
  refine reads_presentProperty.yieldsThen fun property hproperty => ?_
  refine reads_allowsNull.yieldsThen fun allowed hallowed => ?_
  subst hallowed
  refine yields_addKindChecks hb hd hr ?_ kind
  refine (hproperty.relabel _).addCheck rfl ?_ (Graph.knowsCheck_of_nil rfl rfl)
  cases kind with
  | _ => simp [Check.withNull]

/-! ## Compositions on a property -/

theorem yields_noteIfEmpty {combinator : Combinator} {branches : List Json} :
    scene.Yields s (noteIfEmpty combinator name branches) fun _ _ => True := by
  unfold noteIfEmpty
  split
  · exact yields_notify
  · exact yields_pure trivial

theorem yields_branch (hb : scene.Accepts build) (hd : site.scope.document = scene.document)
    (hr : references node ⊆ scene.spelled) :
    scene.Yields s (branch build site node) fun id s' => s'.graph.HasProperty id := by
  unfold branch
  refine (hb s { scope := site.scope, name := site.name, required := true } node hd hr).bind fun id m _ hid => ?_
  simp only
  split
  · exact (yields_relax hid.required).bind fun _ t ht _ => yields_pure (hid.1.grows ht.grows)
  · exact yields_pure hid.1

theorem draft_inferLabel (h : scene.Draft s required strict property) (labels : List (Option TypeLabel)) :
    scene.Draft s required strict (inferLabel property labels) := by
  unfold inferLabel
  split
  · split
    · refine (h.addDecorator fun id heq => ?_).relabel _
      cases heq
    · exact h
  · exact h

theorem yields_addComposition (hb : scene.Accepts build) (hd : site.scope.document = scene.document)
    (hr : references node ⊆ scene.spelled) (h : scene.Draft s required strict property) (combinator : Combinator) :
    scene.Yields s (addComposition build site node property combinator) fun result s' =>
      scene.Draft s' required strict result := by
  unfold addComposition
  refine reads_branches?.yieldsThen fun found hfound => ?_
  cases found with
  | none => exact yields_pure h
  | some nodes =>
    refine yields_noteIfEmpty.bind fun _ m hm _ => ?_
    have hbranches : scene.Yields m (nodes.mapM fun inner => branch build site (Keyword.inheritType node inner))
        fun ids s' => ∀ id ∈ ids, s'.graph.HasProperty id :=
      yields_mapM (fun _ _ _ hm hid => hid.grows hm.grows) fun inner hinner _ _ =>
        yields_branch hb hd (references_branch hr (hfound nodes rfl inner hinner))
    refine hbranches.bind fun ids t ht hids => ?_
    refine Yields.after (Build.runs_graph.2 ⟨rfl, rfl⟩) (yields_pure ?_)
    have hdraft := (h.writes hm).writes ht
    refine Draft.addItemCheck ?_ rfl (fun _ => rfl) rfl fun id hid => ?_
    · split
      · exact draft_inferLabel hdraft _
      · exact hdraft
    · obtain ⟨branch, hbranch, rfl⟩ := List.mem_map.1 hid
      obtain ⟨child, hchild, rfl⟩ := List.mem_map.1 hbranch
      exact hids child hchild

/-- The check of a conditional leads to the branches built for it. -/
theorem yields_conditional? {buildBranch : Json → Build PropertyId} {onObject : Bool}
    (hbuild : ∀ m inner, references inner ⊆ references node →
      scene.Yields m (buildBranch inner) fun id s' => s'.graph.HasProperty id) :
    scene.Yields s (conditional? buildBranch name node onObject) fun found s' => ∀ check, found = some check →
      check.isRequired = false ∧ (∀ settles, check.withNull settles = check) ∧ s'.graph.KnowsCheck check := by
  unfold conditional?
  split
  · refine yields_pure fun check hnone => ?_
    cases hnone
  · rename_i condition hget
    split
    · refine (hbuild s _ (references_subset_get hget)).bind fun premise m _ hpremise => ?_
      refine (yields_option_mapM fun inner hinner => hbuild m inner (references_subset_get hinner)).bind
        fun consequent t ht hconsequent => ?_
      refine (yields_option_mapM fun inner hinner => hbuild t inner (references_subset_get hinner)).bind
        fun alternative u hu halternative => ?_
      refine yields_pure fun check heq => ?_
      cases heq
      refine ⟨rfl, fun _ => rfl, Graph.knowsCheck_of_children (fun id hid => ?_) rfl⟩
      rcases List.mem_cons.1 hid with rfl | hid
      · exact (hpremise.grows ht.grows).grows hu.grows
      · rcases List.mem_append.1 hid with hid | hid
        · exact (hconsequent id (Option.mem_toList.1 hid)).grows hu.grows
        · exact halternative id (Option.mem_toList.1 hid)
    · refine yields_notify.bind fun _ m _ _ => yields_pure fun check hnone => ?_
      cases hnone

theorem yields_applyCompositions (hb : scene.Accepts build) (hd : site.scope.document = scene.document)
    (hr : references node ⊆ scene.spelled) (h : scene.Draft s site.required strict property) :
    scene.Yields s (applyCompositions build site node property) fun result s' =>
      scene.Draft s' site.required strict result := by
  unfold applyCompositions
  refine (yields_foldlM (P := fun property m => scene.Draft m site.required strict property) h
    fun combinator _ property m _ hproperty => yields_addComposition hb hd hr hproperty combinator).bind
      fun property m _ hproperty => ?_
  refine (yields_conditional? fun m inner hinner => yields_branch hb hd (references_branch hr hinner)).bind
    fun conditional t ht hconditional => ?_
  have hadded : scene.Draft t site.required strict ((conditional.map property.addCheck).getD property) := by
    cases conditional with
    | none => exact hproperty.writes ht
    | some check =>
      obtain ⟨hrequired, hnull, hknown⟩ := hconditional check rfl
      exact (hproperty.writes ht).addCheck hrequired (hnull _) hknown
  simp only
  split
  · refine reads_allowsNull.yieldsThen fun allowed hallowed => yields_pure ?_
    subst hallowed
    refine hadded.addCheck rfl ?_ (Graph.knowsCheck_of_nil rfl rfl)
    rw [hadded.strict]
    rfl
  · exact yields_pure hadded

end Scene
end Building
end SchemaTypes
