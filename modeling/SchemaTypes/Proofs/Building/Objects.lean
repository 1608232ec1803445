import SchemaTypes.Building.Unions
import SchemaTypes.Proofs.Building.Values
/-!
# Contracts of types

A type is reserved, filled in and finished, in this order.  What is built while it is filled in leaves it
alone, so it is finished once: its signature is recorded where there was none.
-/
namespace SchemaTypes.Building
namespace Env

variable {env : Env} {name keyword : String} {node : Json} {property : Property} {required : Bool}
  {build : Builder} {scope : Scope} {site : Site} {type : TypeId} {s m s' : Session}

theorem runs_newProperty {config : Config} (h : (Build.newProperty name required).Runs config s property s') :
    s' = s ∧ property.validators = {} := by
  unfold Build.newProperty at h
  split at h
  · obtain ⟨rfl, rfl⟩ := Build.runs_pure.1 h
    exact ⟨rfl, rfl⟩
  · exact absurd h Build.not_runs_refuse

theorem validators_addDecorator (property : Property) (decorator : Decorator) :
    (property.addDecorator decorator).validators = property.validators := by
  unfold Property.addDecorator
  split
  · rfl
  · rfl

/-- The property of an instance waits for nothing and demands an instance. -/
theorem runs_instanceProperty {config : Config}
    (h : (instanceProperty name type required).Runs config s property s') :
    s' = s ∧ property.defers = false ∧ property.demands = instanceDemands type := by
  unfold instanceProperty at h
  rw [Build.runs_graph_bind] at h
  obtain ⟨fresh, m, hnew, hrest⟩ := Build.runs_bind.1 h
  obtain ⟨rfl, hvalidators⟩ := runs_newProperty hnew
  rw [Build.runs_bind_of_iff fun _ _ => Build.runs_allowsNull] at hrest
  simp only at hrest
  obtain ⟨rfl, rfl⟩ := Build.runs_pure.1 hrest
  have hdecorated : ({ fresh with label := some (.single (s'.graph.className type)), nested := some type }.addDecorator
      (.instantiates type)).validators = {} := (validators_addDecorator _ _).trans hvalidators
  refine ⟨rfl, ?_⟩
  unfold Property.defers Property.demands
  split
  · simp only [Property.addCheck]
    rw [hdecorated]
    exact ⟨rfl, rfl⟩
  · simp only [Property.addCheck]
    rw [hdecorated]
    exact ⟨rfl, rfl⟩

theorem ensures_instanceProperty : env.Ensures (instanceProperty name type required) fun property _ =>
    property.defers = false ∧ property.demands = instanceDemands type :=
  ensures_of_reads fun _ _ _ h => runs_instanceProperty h

/-! ## Filling a type in -/

theorem ensures_addProperties (hb : env.Accepts build) (hd : scope.document = env.document)
    (hr : references node ⊆ env.spelled) (hid : env.floor ≤ type.index) :
    env.Ensures (addProperties build scope type node) fun _ _ => True := by
  unfold addProperties
  refine ensures_requiredNames.andThen fun required => ?_
  refine ensures_members?.bind fun found hfound => ?_
  have hdeclared : ∀ member ∈ found.getD [], references member.2 ⊆ env.spelled := by
    cases found with
    | none => exact fun member hmember => absurd hmember List.not_mem_nil
    | some members =>
      exact fun member hmember => List.Subset.trans (references_member hmember)
        (List.Subset.trans (hfound members rfl) hr)
  simp only
  refine Ensures.andThen (P := fun _ _ => True) (ensures_forIn fun member hmember _ => ?_) fun _ => ?_
  · refine (hb ⟨scope, member.1, required.contains member.1, false⟩ member.2 hd
      (hdeclared member hmember)).andThen fun id => ?_
    exact (ensures_addTypeProperty hid).andThen fun _ => ensures_pure fun _ => trivial
  · refine Ensures.andThen (P := fun _ _ => True) (ensures_forIn fun name _ _ => ?_) fun _ =>
      ensures_pure fun _ => trivial
    refine (hb ⟨scope, name, true, false⟩ (.object []) hd (List.nil_subset _)).andThen fun id => ?_
    exact (ensures_addTypeProperty hid).andThen fun _ => ensures_pure fun _ => trivial

theorem ensures_addPatternProperty (hb : env.Accepts build) (hd : scope.document = env.document)
    (hid : env.floor ≤ type.index) {before : List (Pattern × String)} {member : String × Json}
    (hr : references member.2 ⊆ env.spelled) :
    env.Ensures (addPatternProperty build scope type before member) fun _ _ => True := by
  obtain ⟨source, inner⟩ := member
  unfold addPatternProperty
  simp only
  refine ensures_pattern.andThen fun pattern => ?_
  have hadd : env.Ensures (do
      let property ← Build.nested build scope ("pattern property " ++ source) inner
      Build.addTypeCheck type
        (.patternProperty scope.className pattern ((inner.stringAt? "key").getD source) property)
      pure (before ++ [(pattern, (inner.stringAt? "key").getD source)])) fun _ _ => True := by
    refine (ensures_nested hb hd hr).andThen fun property => ?_
    exact (ensures_addTypeCheck hid).andThen fun _ => ensures_pure fun _ => trivial
  split
  · exact Ensures.andThen (P := fun _ _ => True) ensures_refuse fun _ => hadd
  · exact hadd

theorem ensures_addOpenProperties (hb : env.Accepts build) (hd : scope.document = env.document)
    (hr : references node ⊆ env.spelled) (hid : env.floor ≤ type.index) :
    env.Ensures (addOpenProperties build scope type node) fun _ _ => True := by
  unfold addOpenProperties
  refine ensures_graph.andThen fun graph => ?_
  refine ensures_members?.bind fun found hfound => ?_
  have hmembers : ∀ member ∈ found.getD [], references member.2 ⊆ env.spelled := by
    cases found with
    | none => exact fun member hmember => absurd hmember List.not_mem_nil
    | some members =>
      exact fun member hmember => List.Subset.trans (references_member hmember)
        (List.Subset.trans (hfound members rfl) hr)
  simp only
  refine Ensures.andThen (ensures_foldlM (q := fun _ => True) trivial fun member hmember before _ =>
    ensures_addPatternProperty hb hd hid (hmembers member hmember)) fun patterns => ?_
  split
  · exact ensures_pure fun _ => trivial
  · exact ensures_pure fun _ => trivial
  · exact ensures_addTypeCheck hid
  · rename_i members hget
    refine (ensures_nested hb hd (List.Subset.trans (references_subset_get hget) hr)).andThen fun property => ?_
    exact ensures_addTypeCheck hid
  · exact ensures_malformed

theorem ensures_addPropertyNames (hb : env.Accepts build) (hd : scope.document = env.document)
    (hr : references node ⊆ env.spelled) (hid : env.floor ≤ type.index) :
    env.Ensures (addPropertyNames build scope type node) fun _ _ => True := by
  unfold addPropertyNames
  split
  · exact ensures_pure fun _ => trivial
  · rename_i names hget
    refine (ensures_nested hb hd (List.Subset.trans (references_subset_get hget) hr)).andThen fun property => ?_
    exact ensures_addTypeCheck hid

theorem ensures_addPropertyCounts (hid : env.floor ≤ type.index) :
    env.Ensures (addPropertyCounts scope type node) fun _ _ => True := by
  unfold addPropertyCounts
  refine ensures_count?.andThen fun found => ?_
  split
  · refine (ensures_addTypeCheck hid).andThen fun _ => ensures_count?.andThen fun found => ?_
    split
    · exact ensures_addTypeCheck hid
    · exact ensures_pure fun _ => trivial
  · refine ensures_count?.andThen fun found => ?_
    split
    · exact ensures_addTypeCheck hid
    · exact ensures_pure fun _ => trivial

theorem ensures_addDependency (hb : env.Accepts build) (hd : scope.document = env.document)
    (hid : env.floor ≤ type.index) {member : String × Json} (hr : references member.2 ⊆ env.spelled) :
    env.Ensures (addDependency build scope type member) fun _ _ => True := by
  obtain ⟨trigger, dependency⟩ := member
  unfold addDependency
  have hschema : env.Ensures (do
      let property ← Build.nested build scope ("dependency of " ++ trigger) (Keyword.withObjectType dependency)
      Build.addTypeCheck type (.schemaDependency trigger property)) fun _ _ => True := by
    refine (ensures_nested hb hd
      (List.Subset.trans (references_withObjectType dependency) hr)).andThen fun property => ?_
    exact ensures_addTypeCheck hid
  simp only
  split
  · exact ensures_strings.andThen fun dependants => ensures_addTypeCheck hid
  · exact ensures_pure fun _ => trivial
  · exact hschema
  · exact hschema
  · exact ensures_malformed

theorem ensures_addDependencies (hb : env.Accepts build) (hd : scope.document = env.document)
    (hr : references node ⊆ env.spelled) (hid : env.floor ≤ type.index) :
    env.Ensures (addDependencies build scope type node keyword) fun _ _ => True := by
  unfold addDependencies
  refine ensures_members?.bind fun found hfound => ?_
  split
  · rename_i dependencies
    refine ensures_forM fun member hmember => ensures_addDependency hb hd hid ?_
    exact List.Subset.trans (references_member hmember) (List.Subset.trans (hfound dependencies rfl) hr)
  · exact ensures_pure fun _ => trivial

/-! ## Compositions on a type -/

theorem ensures_lift {combinator : Combinator} {source : PropertyId} (hid : env.floor ≤ type.index) :
    env.Ensures (lift type combinator source) fun _ _ => True := by
  unfold lift
  refine ensures_graph.andThen fun graph => ?_
  simp only
  split
  · exact ensures_pure fun _ => trivial
  · have hlifted : (lifted (graph.property source) combinator).defers = false :=
      (Property.defers_addDecorator _ _).trans rfl
    refine (ensures_addProperty hlifted).andThen fun id => ?_
    exact (ensures_addTypeProperty hid).andThen fun _ => ensures_pure fun _ => trivial

theorem ensures_liftBranch {combinator : Combinator} {branch : PropertyId} (hid : env.floor ≤ type.index) :
    env.Ensures (liftBranch type branch combinator) fun _ _ => True := by
  unfold liftBranch
  refine ensures_graph.andThen fun graph => ?_
  split
  · exact ensures_pure fun _ => trivial
  · refine Ensures.andThen (ensures_mapM (q := fun _ => True) fun source _ => ensures_lift hid) fun names => ?_
    exact ensures_pure fun _ => trivial

theorem ensures_objectBranch (hb : env.Accepts build) (hd : scope.document = env.document)
    (hr : references node ⊆ env.spelled) (hid : env.floor ≤ type.index) {combinator : Combinator} :
    env.Ensures (objectBranch build scope type combinator node) fun _ _ => True := by
  unfold objectBranch
  refine (hb ⟨scope, scope.className, true, true⟩ _ hd
    (List.Subset.trans (references_withObjectType node) hr)).andThen fun property => ?_
  simp only
  split
  · exact ensures_pure fun _ => trivial
  · exact (ensures_liftBranch hid).andThen fun affected => ensures_pure fun _ => trivial

theorem ensures_addObjectComposition (hb : env.Accepts build) (hd : scope.document = env.document)
    (hr : references node ⊆ env.spelled) (hid : env.floor ≤ type.index) {combinator : Combinator} :
    env.Ensures (addObjectComposition build scope type node combinator) fun _ _ => True := by
  unfold addObjectComposition
  refine ensures_branches?.bind fun found hfound => ?_
  split
  · exact ensures_pure fun _ => trivial
  · rename_i nodes
    refine ensures_noteIfEmpty.andThen fun _ => ?_
    refine Ensures.andThen (ensures_mapM (q := fun _ => True) fun inner hinner =>
      ensures_objectBranch hb hd (List.Subset.trans (hfound nodes rfl inner hinner) hr) hid) fun branches => ?_
    exact ensures_addTypeCheck hid

theorem ensures_applyObjectCompositions (hb : env.Accepts build) (hd : scope.document = env.document)
    (hr : references node ⊆ env.spelled) (hid : env.floor ≤ type.index) :
    env.Ensures (applyObjectCompositions build scope type node) fun _ _ => True := by
  unfold applyObjectCompositions
  refine Ensures.andThen (ensures_forM fun combinator _ => ensures_addObjectComposition hb hd hr hid) fun _ => ?_
  refine Ensures.andThen (ensures_conditional? fun inner hinner => ?_) fun conditional => ?_
  · refine (hb ⟨scope, scope.className, true, false⟩ _ hd ?_).imp fun _ _ _ => trivial
    exact List.Subset.trans (references_withObjectType inner) (List.Subset.trans hinner hr)
  · split
    · exact ensures_addTypeCheck hid
    · exact ensures_pure fun _ => trivial

theorem ensures_fill (hb : env.Accepts build) (hd : scope.document = env.document)
    (hr : references node ⊆ env.spelled) (hid : env.floor ≤ type.index) :
    env.Ensures (fill build scope type node) fun _ _ => True := by
  unfold fill
  have hrest : env.Ensures (do
      addProperties build scope type node
      addOpenProperties build scope type node
      addPropertyNames build scope type node
      addPropertyCounts scope type node
      dependencyWords.forM (addDependencies build scope type node)
      applyObjectCompositions build scope type node) fun _ _ => True := by
    refine (ensures_addProperties hb hd hr hid).andThen fun _ => ?_
    refine (ensures_addOpenProperties hb hd hr hid).andThen fun _ => ?_
    refine (ensures_addPropertyNames hb hd hr hid).andThen fun _ => ?_
    refine (ensures_addPropertyCounts hid).andThen fun _ => ?_
    refine Ensures.andThen (ensures_forM fun word _ => ensures_addDependencies hb hd hr hid) fun _ => ?_
    exact ensures_applyObjectCompositions hb hd hr hid
  simp only
  split
  · rename_i text _
    refine (ensures_modifyType (f := fun entry => { entry with description := some text }) hid
      ⟨fun _ => rfl, fun _ => rfl, fun _ => rfl⟩).andThen fun _ => hrest
  · exact hrest

/-! ## From reserving to finishing -/

/-- A type that has just been reserved and not been finished. -/
structure Unfinished (env : Env) (s : Session) (type : TypeId) : Prop where
  floor : env.floor ≤ type.index
  lt : type.index < s.graph.types.size
  signature : (s.graph.entry type).signature = none

/-- As `After`, except that the type may have been finished in between. -/
structure AfterFinishing (env : Env) (type : TypeId) (s s' : Session) : Prop where
  steps : Session.Steps env.tidy env.allowed env.floor s s'
  inProgress : ∀ key type, s'.InProgress key type ↔ s.InProgress key type
  signature : ∀ id : TypeId, id.index < s.graph.types.size → id ≠ type →
    (s'.graph.entry id).signature = (s.graph.entry id).signature

theorem After.toFinishing (h : env.After s s') : env.AfterFinishing type s s' :=
  ⟨h.steps, h.inProgress, fun id hid _ => h.signature id hid⟩

theorem AfterFinishing.trans (h : env.AfterFinishing type s m) (h' : env.AfterFinishing type m s') :
    env.AfterFinishing type s s' where
  steps := h.steps.trans h'.steps
  inProgress key other := (h'.inProgress key other).trans (h.inProgress key other)
  signature id hid hne :=
    (h'.signature id (Nat.lt_of_lt_of_le hid h.steps.size_types_le) hne).trans (h.signature id hid hne)

/-- To a session from before the type was reserved, finishing it changes nothing old. -/
theorem After.finishing (h : env.After s m) (hnew : s.graph.types.size ≤ type.index)
    (h' : env.AfterFinishing type m s') : env.After s s' where
  steps := h.steps.trans h'.steps
  inProgress key other := (h'.inProgress key other).trans (h.inProgress key other)
  signature id hid := by
    have hne : id ≠ type := fun heq => Nat.not_lt_of_le hnew (heq ▸ hid)
    exact (h'.signature id (Nat.lt_of_lt_of_le hid h.steps.size_types_le) hne).trans (h.signature id hid)

theorem Holds.afterFinishing (hs : env.Holds s) (h : env.AfterFinishing type s s') : env.Holds s' := by
  refine ⟨Nat.le_trans hs.floor h.steps.size_types_le, fun htidy => ?_⟩
  have hguards := hs.guards htidy
  have hdocuments := h.steps.documents
  refine ⟨h.steps.sound htidy hguards.sound, hdocuments ▸ hguards.distinct, hdocuments ▸ hguards.noAliasCycle, ?_, ?_⟩
  · intro key hkey
    rw [hdocuments]
    exact hguards.plain key ((h.inProgress key none).1 hkey)
  · intro key hkey
    rw [hdocuments]
    exact hguards.leads key ((h.inProgress key none).1 hkey)

/-- Reserving a type for a node. -/
theorem runs_reserveFor (hs : env.Holds s) (h : (reserveFor site node).Runs env.config s type m) :
    env.After s m ∧ m.definitions = s.definitions ∧ s.graph.types.size ≤ type.index ∧ env.Unfinished m type := by
  unfold reserveFor at h
  simp only at h
  rw [Build.runs_read_bind] at h
  obtain ⟨hafter, hfloor⟩ := ensures_reserve hs h
  obtain ⟨rfl, rfl⟩ := Build.runs_reserve.1 h
  refine ⟨hafter, rfl, Nat.le_refl _, hfloor, ?_, ?_⟩
  · simp [Graph.reserve]
  · simp [Graph.reserve, Graph.entry]

/-- Finishing a type that is unfinished, and what it is referred to as from then on. -/
theorem runs_finish_unfinished (hu : env.Unfinished s type) {target : TypeId}
    (h : (finish type).Runs env.config s target s') :
    env.AfterFinishing type s s' ∧ (s'.graph.entry type).signature ≠ none ∧
      (target = type ∨ (s'.graph.entry type).redirect = some target) := by
  obtain ⟨redirect, hfinishes, _, hdefinitions, hgraph⟩ := Session.runs_finish h
  have hentry := (congrArg (Graph.entry · type) hgraph).trans (Session.entry_modifyType _ _ hu.lt)
  refine ⟨⟨.single (.finish hu.floor hu.lt hu.signature h), fun key other => ?_, fun id _ hne => ?_⟩, ?_, ?_⟩
  · unfold Session.InProgress Session.definition?
    rw [hdefinitions]
  · rw [hgraph, Session.entry_modifyType_of_ne]
    exact fun heq => hne (by cases id; cases type; exact congrArg _ heq)
  · exact fun hnone => nomatch (congrArg ObjectType.signature hentry).symm.trans hnone
  · generalize s'.signatures = signatures at hfinishes
    cases hfinishes with
    | kept => exact Or.inl rfl
    | first => exact Or.inl rfl
    | duplicate => exact Or.inr (congrArg ObjectType.redirect hentry)

/-- **A reserved type is filled in and finished once**, and the property made for it is its instance. -/
theorem runs_materialize (hb : env.Accepts build) (hd : site.scope.document = env.document)
    (hr : references node ⊆ env.spelled) (hs : env.Holds s) (hu : env.Unfinished s type)
    (h : (materialize build site node type).Runs env.config s property s') :
    env.AfterFinishing type s s' ∧ property.defers = false ∧ s'.Demanded type property.demands := by
  unfold materialize at h
  simp only at h
  rw [Build.runs_graph_bind] at h
  obtain ⟨_, m, hfill, hrest⟩ := Build.runs_bind.1 h
  obtain ⟨target, m', hfinish, hinstance⟩ := Build.runs_bind.1 hrest
  obtain ⟨hfilled, _⟩ := ensures_fill hb (by exact hd) hr hu.floor hs hfill
  have hlt := Nat.lt_of_lt_of_le hu.lt hfilled.steps.size_types_le
  have hu' : env.Unfinished m type := ⟨hu.floor, hlt, (hfilled.signature type hu.lt).trans hu.signature⟩
  obtain ⟨hfinishing, hsignature, htarget⟩ := runs_finish_unfinished hu' hfinish
  have hfinished := hfilled.toFinishing.trans hfinishing
  obtain ⟨hafter, hclean, hdemands⟩ := ensures_instanceProperty (hs.afterFinishing hfinished) hinstance
  obtain ⟨hsignature', hredirect⟩ := hafter.steps.finished hsignature
  refine ⟨hfinished.trans hafter.toFinishing, hclean, hsignature' ▸ hsignature, target, ?_, hdemands⟩
  exact htarget.imp_right fun h => hredirect.trans h

theorem runs_objectInto (hb : env.Accepts build) (hd : site.scope.document = env.document)
    (hr : references node ⊆ env.spelled) (hs : env.Holds s) (hu : env.Unfinished s type) {id : PropertyId}
    (h : (objectInto build site node type).Runs env.config s id s') :
    env.AfterFinishing type s s' ∧ s'.Settled id ∧ (IsBare node → s'.Represents id type) := by
  unfold objectInto at h
  obtain ⟨property, m, hmaterialize, hrest⟩ := Build.runs_bind.1 h
  obtain ⟨hfinished, hclean, hdemanded⟩ := runs_materialize hb hd hr hs hu hmaterialize
  have hholds := hs.afterFinishing hfinished
  obtain ⟨result, m', hkeywords, hadd⟩ := Build.runs_bind.1 hrest
  obtain ⟨hafter, hclean'⟩ := ensures_applyValueKeywords hclean hholds hkeywords
  obtain ⟨hadded, hsettled⟩ := ensures_addProperty hclean' (hholds.after hafter) hadd
  refine ⟨hfinished.trans (hafter.trans hadded).toFinishing, hsettled, fun hbare => ?_⟩
  obtain ⟨_, hdemands⟩ := ensures_applyValueKeywords_of_bare hbare hholds hkeywords
  obtain ⟨rfl, rfl⟩ := Build.runs_addProperty.1 hadd
  obtain ⟨hsignature, target, htarget, hinstance⟩ := hdemanded
  obtain ⟨hsignature', hredirect⟩ := hafter.steps.finished hsignature
  refine ⟨hsignature' ▸ hsignature, target, htarget.imp_right fun h => hredirect.trans h, ?_⟩
  refine (congrArg Property.demands (Graph.property_addProperty _ _)).trans ?_
  rw [hdemands, hinstance]

theorem ensures_object (hb : env.Accepts build) (hd : site.scope.document = env.document)
    (hr : references node ⊆ env.spelled) :
    env.Ensures (object build site node) fun id s => s.Settled id := by
  intro s id s' hs hrun
  obtain ⟨type, m, hreserve, hobject⟩ := Build.runs_bind.1 hrun
  obtain ⟨hafter, _, hnew, hu⟩ := runs_reserveFor hs hreserve
  obtain ⟨hfinished, hsettled, _⟩ := runs_objectInto hb hd hr (hs.after hafter) hu hobject
  exact ⟨hafter.finishing hnew hfinished, hsettled⟩

/-! ## Unions -/

theorem ensures_member (hb : env.Accepts build) (hd : site.scope.document = env.document)
    (hr : references node ⊆ env.spelled) (kind : Kind) :
    env.Ensures (member build site node kind) fun property _ => property.defers = false := by
  unfold member
  split
  · intro s property s' hs hrun
    simp only at hrun
    obtain ⟨type, m, hreserve, hmaterialize⟩ := Build.runs_bind.1 hrun
    obtain ⟨hafter, _, hnew, hu⟩ := runs_reserveFor hs hreserve
    obtain ⟨hfinished, hclean, _⟩ := runs_materialize hb hd
      (List.Subset.trans (references_withoutCompositions node) hr) (hs.after hafter) hu hmaterialize
    exact ⟨hafter.finishing hnew hfinished, hclean⟩
  · exact ensures_ofKind hb hd hr kind

theorem ensures_unionKinds {types : List Json} : env.Ensures (unionKinds name types) fun _ _ => True := by
  unfold unionKinds
  refine Ensures.andThen (ensures_foldlM (q := fun _ => True) trivial fun type _ kinds _ => ?_) fun kinds => ?_
  · split
    · split
      · exact ensures_pure fun _ => trivial
      · exact ensures_refuse
    · exact ensures_malformed
  · split
    · exact ensures_malformed
    · exact ensures_pure fun _ => trivial

theorem defers_mergeChecks (hclean : property.defers = false) {member : Property}
    (hmember : member.defers = false) : (mergeChecks property member).defers = false := by
  unfold mergeChecks
  have hvalidators : ∀ validator ∈ member.validators.toList, validator.check.isDeferred = false := by
    intro validator hvalidator
    exact Bool.eq_false_iff.2 fun hdeferred =>
      (Bool.eq_false_iff.1 hmember) (List.any_eq_true.2 ⟨validator, hvalidator, hdeferred⟩)
  generalize member.validators.toList = validators at hvalidators
  induction validators generalizing property with
  | nil => exact hclean
  | cons validator rest ih =>
    rw [List.foldl_cons]
    refine ih ?_ fun other hother => hvalidators other (List.mem_cons_of_mem _ hother)
    split
    · exact hclean
    · exact (property.validators.defers_add validator).trans
        (by rw [hvalidators validator List.mem_cons_self]; exact hclean)

theorem defers_addMember (hclean : property.defers = false) {member : Property}
    (hmember : member.defers = false) : (addMember property member).defers = false := by
  unfold addMember
  refine defers_mergeChecks ?_ hmember
  split
  · exact hclean
  · exact hclean

theorem ensures_union (hb : env.Accepts build) (hd : site.scope.document = env.document)
    (hr : references node ⊆ env.spelled) {types : List Json} :
    env.Ensures (union build site node types) fun id s => s.Settled id := by
  unfold union
  refine ensures_unionKinds.andThen fun kinds => ?_
  refine ensures_newProperty.bind fun property hproperty => ?_
  refine Ensures.bind (q := fun property => property.defers = false)
    (ensures_foldlM hproperty fun kind _ property hproperty => ?_) fun property hproperty => ?_
  · exact (ensures_member hb hd hr kind).bind fun member hmember =>
      ensures_pure fun _ => defers_addMember hproperty hmember
  · have hrest : ∀ (label : Option TypeLabel) (allowed : Bool), env.Ensures (do
        let property := if site.required then { property with label }.addCheck .required
          else { property with label }
        let property ← applyValueKeywords
          (property.addCheck (.type kinds (allowed && !kinds.contains .null))) node site.required
        Build.addProperty (← applyCompositions build site node property)) fun id s => s.Settled id := by
      intro label allowed
      have htyped : ((if site.required then { property with label }.addCheck .required
          else { property with label }).addCheck (.type kinds (allowed && !kinds.contains .null))).defers = false := by
        refine defers_addCheck_of ?_ rfl
        split
        · exact defers_addCheck_of hproperty rfl
        · exact hproperty
      refine (ensures_applyValueKeywords htyped).bind fun property hproperty => ?_
      exact (ensures_applyCompositions hb hd hr hproperty).bind fun property hproperty =>
        ensures_addProperty hproperty
    exact ensures_allowsNull.andThen (hrest _)

end Env
end SchemaTypes.Building
