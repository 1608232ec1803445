import SchemaTypes.Proofs.Building.Presence
import SchemaTypes.Proofs.Building.Shelter
/-!
# Children stay strict

Every builder keeps the children of all checks marked as the checks ask (`sheltering_property`): what is required is
firm from the start, what a nested context gets is relaxed behind its builder, and so is a branch of an optional
property.  Marks and validators are in step, so no child's null settles anything, and a child in a nested context is not
asked to be present (`Session.children_performAll`).  That holds after any calls, for copies and for placeholders that
were relaxed before they were filled in.
-/
namespace SchemaTypes
namespace Building

open Build

/-- A builder that keeps all children sheltered, and whose property is firm if it is built as required. -/
def Sheltering (config : Config) (build : Builder) : Prop := ∀ (s : Session) (site : Site) (node : Json),
  Upholds config s (build site node) fun id graph => site.required = true → graph.Firm id

variable {config : Config} {s : Session} {graph : Graph} {build : Builder} {site : Site} {scope : Scope} {node : Json}
  {property : Property} {type : TypeId} {id : PropertyId} {name keyword : String} {required : Bool}

theorem lasting_firm : Lasting fun (id : PropertyId) graph => graph.Firm id :=
  fun id _ _ hg h => hg.firm id h

theorem lasting_sheltered : Lasting fun (id : PropertyId) graph => graph.Sheltered id :=
  fun id _ _ hg h => hg.sheltered id h

/-! ## Drafts -/

theorem harbors_describe (h : graph.Harbors required property) : graph.Harbors required (describe property node) := by
  unfold describe
  split
  · exact ⟨h.required, h.houses⟩
  · exact h

theorem harbors_constant (h : graph.Harbors required property) : graph.Harbors required (constant property node) := by
  unfold constant
  split
  · exact h.addLeaf rfl
  · exact h

theorem harbors_newProperty (graph : Graph) : Tells config (newProperty name required) (graph.Harbors required) := by
  unfold newProperty
  split
  · exact tells_pure ⟨rfl, Graph.housesAll_empty⟩
  · exact tells_refuse

theorem harbors_present (h : graph.Harbors required property) :
    graph.Harbors required (if required then property.addCheck .required else property) := by
  split
  · exact h.addLeaf rfl
  · exact h

theorem harbors_presentProperty (graph : Graph) :
    Tells config (presentProperty site) (graph.Harbors site.required) := by
  unfold presentProperty
  exact (harbors_newProperty graph).bind fun _ hproperty => tells_pure (harbors_present hproperty)

theorem harbors_enumerate (h : graph.Harbors required property) :
    Tells config (enumerate property node required) (graph.Harbors required) := by
  unfold enumerate
  refine Keyword.detached_enumeration?.andTells fun found => ?_
  cases found with
  | none => exact tells_pure h
  | some values =>
    refine detached_allowsNull.andTells fun allowed => ?_
    simp only
    split
    · refine detached_read.andTells fun _ => tells_pure ⟨rfl, ?_⟩
      exact Graph.HousesAll.stampRequired (by exact (h.addLeaf rfl).houses) _ _
    · exact tells_pure (h.addLeaf rfl)

theorem harbors_applyFilter {entry : Json} (h : graph.Harbors required property) :
    Tells config (applyFilter property entry) (graph.Harbors required) := by
  unfold applyFilter
  refine detached_filterEntry.andTells fun found => detached_read.andTells fun known => ?_
  split
  · exact tells_refuse
  · split
    · exact tells_pure (h.addLeaf rfl)
    · exact tells_refuse

theorem harbors_applyFilters (h : graph.Harbors required property) :
    Tells config (applyFilters property node) (graph.Harbors required) := by
  unfold applyFilters
  split
  · exact tells_pure h
  · exact tells_foldlM (fun _ _ hfiltered => harbors_applyFilter hfiltered) h
  · exact harbors_applyFilter h

theorem harbors_applyDefault (h : graph.Harbors required property) :
    Tells config (applyDefault property node) (graph.Harbors required) := by
  unfold applyDefault
  split
  · exact tells_pure h
  · split
    · exact tells_pure ⟨h.required, h.houses⟩
    · exact tells_refuse

theorem harbors_applyValueKeywords (h : graph.Harbors required property) :
    Tells config (applyValueKeywords property node required) (graph.Harbors required) := by
  unfold applyValueKeywords
  exact (harbors_enumerate (harbors_describe h)).bind fun _ hvalued =>
    (harbors_applyFilters (harbors_constant hvalued)).bind fun _ hfiltered => harbors_applyDefault hfiltered

theorem harbors_addPattern (h : graph.Harbors required property) :
    Tells config (addPattern property node) (graph.Harbors required) := by
  unfold addPattern
  split
  · exact tells_pure h
  · exact Keyword.detached_pattern.andTells fun _ => tells_pure (h.addLeaf rfl)
  · exact tells_malformed

theorem harbors_addCount {check : Nat → Check} (hleaf : ∀ n, (check n).children = [])
    (h : graph.Harbors required property) :
    Tells config (addCount property node keyword check) (graph.Harbors required) := by
  unfold addCount
  refine Keyword.detached_count?.andTells fun found => ?_
  cases found with
  | none => exact tells_pure h
  | some n => exact tells_pure (h.addLeaf (hleaf n))

theorem harbors_addStringChecks (h : graph.Harbors required property) :
    Tells config (addStringChecks property node) (graph.Harbors required) := by
  unfold addStringChecks
  refine detached_refuseFormat.andTells fun _ => (harbors_addPattern h).bind fun _ hpatterned => ?_
  exact (harbors_addCount (fun _ => rfl) hpatterned).bind fun _ hbounded => harbors_addCount (fun _ => rfl) hbounded

theorem harbors_addBound {exclusiveKeyword : String} {check : Number → Bool → Check}
    (hleaf : ∀ limit exclusive, (check limit exclusive).children = []) (h : graph.Harbors required property) :
    Tells config (addBound property node keyword exclusiveKeyword check) (graph.Harbors required) := by
  unfold addBound
  refine Keyword.detached_number?.andTells fun found => ?_
  cases found with
  | none =>
    simp only
    split
    · exact tells_pure h
    · exact tells_pure h
    · exact tells_pure (h.addLeaf (hleaf _ true))
    · exact tells_malformed
  | some limit =>
    simp only
    split
    · exact tells_pure (h.addLeaf (hleaf limit false))
    · exact tells_pure (h.addLeaf (hleaf limit _))
    · exact tells_pure ((h.addLeaf (hleaf _ true)).addLeaf (hleaf limit false))
    · exact tells_malformed

theorem harbors_addNumberChecks (h : graph.Harbors required property) :
    Tells config (addNumberChecks property node) (graph.Harbors required) := by
  unfold addNumberChecks
  refine (harbors_addBound (fun _ _ => rfl) h).bind fun _ hleast => ?_
  refine (harbors_addBound (fun _ _ => rfl) hleast).bind fun _ hmost => ?_
  refine Keyword.detached_number?.andTells fun found => ?_
  cases found with
  | none => exact tells_pure hmost
  | some divisor => exact tells_pure (hmost.addLeaf rfl)

theorem harbors_inferLabel (h : graph.Harbors required property) (labels : List (Option TypeLabel)) :
    graph.Harbors required (inferLabel property labels) := by
  unfold inferLabel
  split
  · split
    · exact ⟨(h.addDecorator _).required, (h.addDecorator _).houses⟩
    · exact h
  · exact h

theorem harbors_inferEnumeration (h : graph.Harbors required property) (values : List Json) :
    graph.Harbors required (inferEnumeration property values) := by
  unfold inferEnumeration
  simp only
  split
  · exact ⟨h.required, h.houses⟩
  · exact h.addDecorator _

/-! ## Arrays -/

theorem upholds_nested (hb : Sheltering config build) :
    Upholds config s (Build.nested build scope name node) fun id graph => graph.Sheltered id := by
  unfold Build.nested
  refine (hb s _ node).bind fun id m _ hfirm => ?_
  have hrelaxed : Upholds config m (Build.modifyProperty id Property.relax) fun _ graph => graph.Sheltered id :=
    upholds_of_runs (v := ⟨⟩) (runs_modifyGraph.2 rfl) fun hm =>
      ⟨Graph.upholds_relax, hm.relax, Graph.sheltered_relax (hfirm rfl).hasProperty⟩
  exact hrelaxed.bind fun _ t _ hsheltered => upholds_pure hsheltered

theorem upholds_addTuple (hb : Sheltering config build) {items : List Json}
    (h : s.graph.Harbors required property) :
    Upholds config s (addTuple build scope property items node) fun result graph => graph.Harbors required result := by
  unfold addTuple
  refine (upholds_mapM lasting_sheltered fun _ _ _ _ => upholds_nested hb).bind fun positions m hm hpositions => ?_
  have htuple : m.graph.Harbors required (property.addCheck (.tuple positions)) :=
    (h.upheld hm).addCheck (Graph.houses_of_sheltered hpositions)
  simp only
  split
  · exact upholds_pure htuple
  · exact upholds_pure htuple
  · exact upholds_pure (htuple.addLeaf rfl)
  · refine (upholds_nested hb).bind fun item t ht hitem => upholds_pure ?_
    exact (htuple.upheld ht).addCheck (Graph.houses_of_sheltered (List.forall_mem_singleton.2 hitem))
  · exact upholds_malformed

theorem upholds_addItems (hb : Sheltering config build) (h : s.graph.Harbors required property) :
    Upholds config s (addItems build scope property node) fun result graph => graph.Harbors required result := by
  unfold addItems
  split
  · exact upholds_pure h
  · exact upholds_addTuple hb h
  · refine (upholds_nested hb).bind fun item m hm hitem => upholds_pure ?_
    exact (h.upheld hm).addCheck (Graph.houses_of_sheltered (List.forall_mem_singleton.2 hitem))

theorem upholds_addContains (hb : Sheltering config build) (h : s.graph.Harbors required property) :
    Upholds config s (addContains build scope property node) fun result graph => graph.Harbors required result := by
  unfold addContains
  split
  · exact upholds_pure h
  · refine (upholds_nested hb).bind fun item m hm hitem => upholds_pure ?_
    exact (h.upheld hm).addCheck (Graph.houses_of_sheltered (List.forall_mem_singleton.2 hitem))

theorem upholds_addArrayChecks (hb : Sheltering config build) (h : s.graph.Harbors required property) :
    Upholds config s (addArrayChecks build scope property node) fun result graph => graph.Harbors required result := by
  unfold addArrayChecks
  refine (harbors_addCount (fun _ => rfl) h).upholdsThen detached_addCount fun least hleast => ?_
  refine (harbors_addCount (fun _ => rfl) hleast).upholdsThen detached_addCount fun most hmost => ?_
  refine Keyword.detached_flag.upholdsThen fun unique => ?_
  have hunique : s.graph.Harbors required (if unique = true then most.addCheck .uniqueItems else most) := by
    split
    · exact hmost.addLeaf rfl
    · exact hmost
  exact (upholds_addItems hb hunique).bind fun listed m _ hlisted => upholds_addContains hb hlisted

theorem upholds_addKindChecks (hb : Sheltering config build) (kind : Kind) (h : s.graph.Harbors required property) :
    Upholds config s (addKindChecks build scope kind property node) fun result graph =>
      graph.Harbors required result := by
  unfold addKindChecks
  split
  · exact Tells.upholds detached_addStringChecks (harbors_addStringChecks h)
  · exact Tells.upholds detached_addNumberChecks (harbors_addNumberChecks h)
  · exact Tells.upholds detached_addNumberChecks (harbors_addNumberChecks h)
  · exact upholds_addArrayChecks hb h
  · exact upholds_pure h
  · exact upholds_pure h
  · exact upholds_pure h

theorem upholds_ofKind (hb : Sheltering config build) (kind : Kind) :
    Upholds config s (ofKind build site node kind) fun result graph => graph.Harbors site.required result := by
  unfold ofKind
  refine (harbors_presentProperty s.graph).upholdsThen detached_presentProperty fun property hproperty => ?_
  refine detached_allowsNull.upholdsThen fun allowed => upholds_addKindChecks hb kind ?_
  exact Graph.Harbors.addLeaf (by exact ⟨hproperty.required, hproperty.houses⟩) rfl

/-! ## Compositions on a property -/

theorem upholds_noteIfEmpty {combinator : Combinator} {branches : List Json} :
    Upholds config s (noteIfEmpty combinator name branches) fun _ _ => True := by
  unfold noteIfEmpty
  split
  · exact upholds_notify
  · exact upholds_pure trivial

/-- A branch is required or, of an optional property, relaxed. -/
theorem upholds_branch (hb : Sheltering config build) :
    Upholds config s (branch build site node) fun id graph => graph.Firm id := by
  unfold branch
  refine (hb s _ node).bind fun id m _ hfirm => ?_
  simp only
  split
  · have hrelaxed : Upholds config m (Build.modifyProperty id Property.relax) fun _ graph => graph.Firm id :=
      upholds_of_runs (v := ⟨⟩) (runs_modifyGraph.2 rfl) fun hm =>
        ⟨Graph.upholds_relax, hm.relax, (Graph.sheltered_relax (hfirm rfl).hasProperty).firm⟩
    exact hrelaxed.bind fun _ t _ hsheltered => upholds_pure hsheltered
  · exact upholds_pure (hfirm rfl)

theorem firm_branches {ids : List PropertyId} (h : ∀ id ∈ ids, graph.Firm id) (combinator : Combinator) :
    graph.Houses (.composition combinator (ids.map fun id => ⟨id, []⟩) false) := by
  refine Graph.houses_of_composed rfl fun id hid => ?_
  obtain ⟨branch, hbranch, rfl⟩ := List.mem_map.1 hid
  obtain ⟨id, hmem, rfl⟩ := List.mem_map.1 hbranch
  exact h id hmem

theorem upholds_addComposition (hb : Sheltering config build) (combinator : Combinator)
    (h : s.graph.Harbors required property) :
    Upholds config s (addComposition build site node property combinator) fun result graph =>
      graph.Harbors required result := by
  unfold addComposition
  refine Keyword.detached_branches?.upholdsThen fun found => ?_
  split
  · exact upholds_pure h
  · refine upholds_noteIfEmpty.bind fun _ m hm _ => ?_
    refine (upholds_mapM lasting_firm fun _ _ _ _ => upholds_branch hb).bind fun ids t ht hids => ?_
    refine upholds_graph_bind (upholds_pure (Graph.Harbors.addCheck ?_ (firm_branches hids combinator)))
    have hkept := (h.upheld hm).upheld ht
    split
    · exact harbors_inferLabel hkept _
    · exact hkept

theorem upholds_conditional? {buildBranch : Json → Build PropertyId} {onObject : Bool}
    (hbuild : ∀ inner m, Upholds config m (buildBranch inner) fun id graph => graph.Firm id) :
    Upholds config s (conditional? buildBranch name node onObject) fun found graph =>
      ∀ check ∈ found, graph.Houses check := by
  unfold conditional?
  split
  · exact upholds_pure fun _ hcheck => nomatch hcheck
  · split
    · refine (hbuild _ s).bind fun condition m _ hcondition => ?_
      refine (upholds_option_mapM fun inner => hbuild inner m).bind fun consequent t ht hconsequent => ?_
      refine (upholds_option_mapM fun inner => hbuild inner t).bind fun alternative u hu halternative => ?_
      refine upholds_pure fun check hcheck => ?_
      cases hcheck
      refine Graph.houses_of_composed rfl fun id hid => ?_
      rcases List.mem_cons.1 hid with rfl | hid
      · exact hu.firm _ (ht.firm _ hcondition)
      · rcases List.mem_append.1 hid with hid | hid
        · exact hu.firm _ (hconsequent id (Option.mem_toList.1 hid))
        · exact halternative id (Option.mem_toList.1 hid)
    · exact upholds_notify.bind fun _ m _ _ => upholds_pure fun _ hcheck => nomatch hcheck

theorem upholds_applyCompositions (hb : Sheltering config build) (h : s.graph.Harbors required property) :
    Upholds config s (applyCompositions build site node property) fun result graph =>
      graph.Harbors required result := by
  unfold applyCompositions
  refine (upholds_foldlM (R := fun result graph => graph.Harbors required result)
    (fun _ combinator _ _ hproperty => upholds_addComposition hb combinator hproperty) h).bind
      fun composed m _ hcomposed => ?_
  refine (upholds_conditional? fun inner t => upholds_branch hb).bind fun conditional t ht hconditional => ?_
  have hall : t.graph.Harbors required ((conditional.map composed.addCheck).getD composed) := by
    cases conditional with
    | none => exact hcomposed.upheld ht
    | some check => exact (hcomposed.upheld ht).addCheck (hconditional check rfl)
  simp only
  split
  · exact detached_allowsNull.upholdsThen fun _ => upholds_pure (hall.addLeaf rfl)
  · exact upholds_pure hall

/-! ## Filling a type in -/

theorem upholds_instanceProperty :
    Upholds config s (instanceProperty name type required) fun result graph => graph.Harbors required result := by
  unfold instanceProperty
  refine upholds_graph_bind ((harbors_newProperty s.graph).upholdsThen detached_newProperty fun fresh hfresh => ?_)
  refine detached_allowsNull.upholdsThen fun allowed => upholds_pure ?_
  have hlabelled : s.graph.Harbors required
      { fresh with label := some (.single (s.graph.className type)), nested := some type } :=
    ⟨hfresh.required, hfresh.houses⟩
  exact ((harbors_present (hlabelled.addDecorator (.instantiates type))).addLeaf rfl).addLeaf rfl

theorem upholds_addProperties (hb : Sheltering config build) :
    Upholds config s (addProperties build scope type node) fun _ _ => True := by
  unfold addProperties
  refine Keyword.detached_requiredNames.upholdsThen fun required => ?_
  refine Keyword.detached_members?.upholdsThen fun found => ?_
  simp only
  refine (upholds_forIn fun member _ m _ => ?_).bind fun _ t _ _ => ?_
  · exact (hb m _ member.2).bind fun _ _ _ _ => upholds_addTypeProperty.bind fun _ _ _ _ => upholds_pure trivial
  · refine (upholds_forIn fun name _ m _ => ?_).bind fun _ _ _ _ => upholds_pure trivial
    exact (hb m _ _).bind fun _ _ _ _ => upholds_addTypeProperty.bind fun _ _ _ _ => upholds_pure trivial

theorem upholds_addPatternProperty (hb : Sheltering config build) {before : List (Pattern × String)}
    {member : String × Json} :
    Upholds config s (addPatternProperty build scope type before member) fun _ _ => True := by
  obtain ⟨source, inner⟩ := member
  unfold addPatternProperty
  simp only
  refine Keyword.detached_pattern.upholdsThen fun pattern => ?_
  split
  · exact Upholds.bind (Q := fun _ _ => False) upholds_refuse fun _ _ _ hfalse => hfalse.elim
  · refine (upholds_nested hb).bind fun property m _ hproperty => ?_
    refine (upholds_addTypeCheck ?_).bind fun _ _ _ _ => upholds_pure trivial
    exact Graph.houses_of_sheltered (List.forall_mem_singleton.2 hproperty)

theorem upholds_addOpenProperties (hb : Sheltering config build) :
    Upholds config s (addOpenProperties build scope type node) fun _ _ => True := by
  unfold addOpenProperties
  refine upholds_graph_bind (Keyword.detached_members?.upholdsThen fun found => ?_)
  simp only
  refine (upholds_foldlM (R := fun _ _ => True) (fun _ _ _ _ _ => upholds_addPatternProperty hb) trivial).bind
    fun patterns m _ _ => ?_
  split
  · exact upholds_pure trivial
  · exact upholds_pure trivial
  · exact upholds_addTypeCheck (Graph.houses_of_nil rfl)
  · refine (upholds_nested hb).bind fun property t _ hproperty => upholds_addTypeCheck ?_
    exact Graph.houses_of_sheltered (List.forall_mem_singleton.2 hproperty)
  · exact upholds_malformed

theorem upholds_addPropertyNames (hb : Sheltering config build) :
    Upholds config s (addPropertyNames build scope type node) fun _ _ => True := by
  unfold addPropertyNames
  split
  · exact upholds_pure trivial
  · refine (upholds_nested hb).bind fun property t _ hproperty => upholds_addTypeCheck ?_
    exact Graph.houses_of_sheltered (List.forall_mem_singleton.2 hproperty)

theorem upholds_addPropertyCounts :
    Upholds config s (addPropertyCounts scope type node) fun _ _ => True := by
  unfold addPropertyCounts
  refine Keyword.detached_count?.upholdsThen fun least => ?_
  split
  · refine (upholds_addTypeCheck (Graph.houses_of_nil rfl)).bind fun _ m _ _ =>
      Keyword.detached_count?.upholdsThen fun most => ?_
    split
    · exact upholds_addTypeCheck (Graph.houses_of_nil rfl)
    · exact upholds_pure trivial
  · refine Keyword.detached_count?.upholdsThen fun most => ?_
    split
    · exact upholds_addTypeCheck (Graph.houses_of_nil rfl)
    · exact upholds_pure trivial

theorem upholds_addDependency (hb : Sheltering config build) {member : String × Json} :
    Upholds config s (addDependency build scope type member) fun _ _ => True := by
  obtain ⟨trigger, dependency⟩ := member
  have hschema : Upholds config s (do
      let property ← Build.nested build scope ("dependency of " ++ trigger) (Keyword.withObjectType dependency)
      Build.addTypeCheck type (.schemaDependency trigger property)) fun _ _ => True :=
    (upholds_nested hb).bind fun property t _ hproperty =>
      upholds_addTypeCheck (Graph.houses_of_sheltered (List.forall_mem_singleton.2 hproperty))
  unfold addDependency
  simp only
  split
  · exact Keyword.detached_strings.upholdsThen fun _ => upholds_addTypeCheck (Graph.houses_of_nil rfl)
  · exact upholds_pure trivial
  · exact hschema
  · exact hschema
  · exact upholds_malformed

theorem upholds_addDependencies (hb : Sheltering config build) :
    Upholds config s (addDependencies build scope type node keyword) fun _ _ => True := by
  unfold addDependencies
  refine Keyword.detached_members?.upholdsThen fun found => ?_
  split
  · exact upholds_forM fun _ _ _ _ => upholds_addDependency hb
  · exact upholds_pure trivial

/-- A lifted property checks nothing. -/
theorem harbors_lifted (graph : Graph) (property : Property) (combinator : Combinator) :
    graph.Harbors false (lifted property combinator) := by
  unfold lifted
  exact Graph.Harbors.addDecorator (by exact ⟨rfl, Graph.housesAll_empty⟩) _

theorem upholds_lift {combinator : Combinator} {source : PropertyId} :
    Upholds config s (lift type combinator source) fun _ _ => True := by
  unfold lift
  refine upholds_graph_bind ?_
  simp only
  split
  · exact upholds_pure trivial
  · refine (upholds_addProperty (harbors_lifted _ _ _)).bind fun id m _ _ => ?_
    exact upholds_addTypeProperty.bind fun _ _ _ _ => upholds_pure trivial

theorem upholds_liftBranch {combinator : Combinator} {branch : PropertyId} :
    Upholds config s (liftBranch type branch combinator) fun _ _ => True := by
  unfold liftBranch
  refine upholds_graph_bind ?_
  split
  · exact upholds_pure trivial
  · refine (upholds_mapM (R := fun _ _ => True) (fun _ _ _ _ _ => trivial) fun _ _ _ _ => upholds_lift).bind
      fun _ _ _ _ => upholds_pure trivial

theorem upholds_objectBranch (hb : Sheltering config build) {combinator : Combinator} :
    Upholds config s (objectBranch build scope type combinator node) fun branch graph =>
      graph.Firm branch.property := by
  unfold objectBranch
  refine (hb s _ _).bind fun property m _ hfirm => ?_
  simp only
  split
  · rw [pure_bind]
    exact upholds_pure (hfirm rfl)
  · exact upholds_liftBranch.bind fun _ t ht _ => upholds_pure (ht.firm _ (hfirm rfl))

theorem upholds_addObjectComposition (hb : Sheltering config build) {combinator : Combinator} :
    Upholds config s (addObjectComposition build scope type node combinator) fun _ _ => True := by
  unfold addObjectComposition
  refine Keyword.detached_branches?.upholdsThen fun found => ?_
  split
  · exact upholds_pure trivial
  · refine upholds_noteIfEmpty.bind fun _ m _ _ => ?_
    refine (upholds_mapM (R := fun (branch : Branch) graph => graph.Firm branch.property)
      (fun _ _ _ hg h => hg.firm _ h) fun _ _ _ _ => upholds_objectBranch hb).bind fun branches t _ hbranches => ?_
    refine upholds_addTypeCheck (Graph.houses_of_composed rfl fun id hid => ?_)
    obtain ⟨branch, hbranch, rfl⟩ := List.mem_map.1 hid
    exact hbranches branch hbranch

theorem upholds_applyObjectCompositions (hb : Sheltering config build) :
    Upholds config s (applyObjectCompositions build scope type node) fun _ _ => True := by
  unfold applyObjectCompositions
  refine (upholds_forM fun combinator _ _ _ => upholds_addObjectComposition hb).bind fun _ m _ _ => ?_
  refine (upholds_conditional? fun inner t => (hb t _ _).imp fun _ _ hfirm => hfirm rfl).bind
    fun conditional t _ hconditional => ?_
  split
  · exact upholds_addTypeCheck (hconditional _ rfl)
  · exact upholds_pure trivial

theorem upholds_fill (hb : Sheltering config build) :
    Upholds config s (fill build scope type node) fun _ _ => True := by
  unfold fill
  have hrest : ∀ m : Session, Upholds config m (do
      addProperties build scope type node
      addOpenProperties build scope type node
      addPropertyNames build scope type node
      addPropertyCounts scope type node
      dependencyWords.forM (addDependencies build scope type node)
      applyObjectCompositions build scope type node) fun _ _ => True := by
    refine fun m => (upholds_addProperties hb).bind fun _ _ _ _ => (upholds_addOpenProperties hb).bind fun _ _ _ _ => ?_
    refine (upholds_addPropertyNames hb).bind fun _ _ _ _ => upholds_addPropertyCounts.bind fun _ _ _ _ => ?_
    refine (upholds_forM fun _ _ _ _ => upholds_addDependencies hb).bind fun _ _ _ _ => ?_
    exact upholds_applyObjectCompositions hb
  simp only
  split
  · refine Upholds.bind (upholds_modifyType ?_) fun _ m _ _ => hrest m
    exact fun _ hentry => hentry
  · exact hrest s

/-! ## Objects and unions -/

theorem upholds_reserve {namespaceName className : String} {isRoot : Bool} :
    Upholds config s (Build.reserve namespaceName className isRoot) fun _ _ => True :=
  upholds_of_runs (runs_reserve.2 ⟨rfl, rfl⟩) fun hs =>
    ⟨Graph.upholds_of_properties rfl, hs.reserve namespaceName className isRoot, trivial⟩

theorem upholds_reserveFor : Upholds config s (reserveFor site node) fun _ _ => True := by
  unfold reserveFor
  exact detached_read.upholdsThen fun _ => upholds_reserve

theorem upholds_finish : Upholds config s (finish type) fun _ _ => True := by
  refine fun hs => ⟨fun target s' hrun => ?_, fun halt s' hhalts => absurd hhalts Scene.not_halts_finish⟩
  obtain ⟨_, _, _, _, hgraph⟩ := Session.runs_finish hrun
  rw [hgraph]
  exact ⟨Graph.upholds_of_properties rfl, hs.modifyType fun _ hentry => hentry, trivial⟩

theorem upholds_materialize (hb : Sheltering config build) :
    Upholds config s (materialize build site node type) fun result graph => graph.Harbors site.required result := by
  unfold materialize
  refine upholds_graph_bind ((upholds_fill hb).bind fun _ _ _ _ => ?_)
  exact upholds_finish.bind fun _ _ _ _ => upholds_instanceProperty

theorem upholds_objectInto (hb : Sheltering config build) :
    Upholds config s (objectInto build site node type) fun id graph => site.required = true → graph.Firm id := by
  unfold objectInto
  refine (upholds_materialize hb).bind fun property m _ hproperty => ?_
  exact (harbors_applyValueKeywords hproperty).upholdsThen detached_applyValueKeywords fun _ h => upholds_addProperty h

theorem upholds_object (hb : Sheltering config build) :
    Upholds config s (object build site node) fun id graph => site.required = true → graph.Firm id := by
  unfold object
  exact upholds_reserveFor.bind fun _ _ _ _ => upholds_objectInto hb

theorem upholds_member (hb : Sheltering config build) (kind : Kind) :
    Upholds config s (member build site node kind) fun result graph => graph.HousesAll result.validators := by
  unfold member
  split
  · exact upholds_reserveFor.bind fun _ _ _ _ => (upholds_materialize hb).imp fun _ _ h => h.houses
  · exact (upholds_ofKind hb kind).imp fun _ _ h => h.houses

theorem harbors_mergeChecks {member : Property} (h : graph.Harbors required property)
    (hmember : graph.HousesAll member.validators) : graph.Harbors required (mergeChecks property member) := by
  unfold mergeChecks
  refine List.foldlRecOn member.validators.toList _ h fun draft hdraft validator hvalidator => ?_
  split
  · exact hdraft
  · refine ⟨hdraft.required, fun v hv => ?_⟩
    rcases Validators.mem_toList_add.1 hv with rfl | hv
    · exact hmember v hvalidator
    · exact hdraft.houses v hv

theorem harbors_addMember {member : Property} (h : graph.Harbors required property)
    (hmember : graph.HousesAll member.validators) : graph.Harbors required (addMember property member) := by
  unfold addMember
  refine harbors_mergeChecks ?_ hmember
  simp only
  split
  · exact ⟨h.required, h.houses⟩
  · exact ⟨h.required, h.houses⟩

theorem upholds_complement (hb : Sheltering config build) (h : s.graph.Harbors site.required property) :
    Upholds config s (complement build site node property) fun id graph => site.required = true → graph.Firm id := by
  unfold complement
  refine (harbors_applyValueKeywords h).upholdsThen detached_applyValueKeywords fun valued hvalued => ?_
  exact (upholds_applyCompositions hb hvalued).bind fun _ _ _ hcomposed => upholds_addProperty hcomposed

theorem upholds_union (hb : Sheltering config build) {types : List Json} :
    Upholds config s (union build site node types) fun id graph => site.required = true → graph.Firm id := by
  unfold union
  refine detached_unionKinds.upholdsThen fun kinds => ?_
  refine (harbors_newProperty s.graph).upholdsThen detached_newProperty fun fresh hfresh => ?_
  refine (upholds_foldlM (R := fun result graph => graph.Harbors site.required result)
    (fun property kind m _ hproperty => ?_) hfresh).bind fun joined m _ hjoined => ?_
  · exact (upholds_member hb kind).bind fun _ _ ht hmember =>
      upholds_pure (harbors_addMember (hproperty.upheld ht) hmember)
  · refine detached_allowsNull.upholdsThen fun allowed => upholds_complement hb ?_
    have hlabelled : ∀ label, m.graph.Harbors site.required { joined with label := some label } :=
      fun _ => ⟨hjoined.required, hjoined.houses⟩
    exact (harbors_present (hlabelled _)).addLeaf rfl

/-! ## Definitions -/

theorem upholds_getProperty {f : Property → Build PropertyId} {Q : PropertyId → Graph → Prop}
    (h : Upholds config s (f (s.graph.property id)) Q) : Upholds config s (Build.getProperty id >>= f) Q := by
  unfold Build.getProperty
  rw [bind_assoc]
  exact upholds_graph_bind (by rw [pure_bind]; exact h)

theorem upholds_bind {definition placeholder : PropertyId} :
    Upholds config s (bind definition placeholder) fun _ _ => True := by
  have hrun : (bind definition placeholder).Runs config s ⟨⟩ (s.withGraph (s.graph.modifyProperty placeholder
      (bound · (s.graph.property definition) config.settings.implicitNull))) := rfl
  exact upholds_of_runs hrun fun hs => ⟨Graph.upholds_bound _ _, hs.bound definition _, trivial⟩

theorem upholds_complete {key : DefinitionKey} {definition : PropertyId} :
    Upholds config s (complete key definition) fun _ _ => True := by
  unfold complete
  refine upholds_get_bind ((upholds_modify rfl).bind fun _ m _ _ => ?_)
  split
  · exact upholds_forM fun _ _ _ _ => upholds_bind
  · exact upholds_pure trivial

theorem upholds_copy {definition : PropertyId} :
    Upholds config s (copy definition site) fun id graph => site.required = true → graph.Firm id := by
  unfold copy
  refine upholds_of_sheltering fun hs => upholds_getProperty ?_
  split
  · exact upholds_refuse
  · exact detached_read.upholdsThen fun _ => upholds_addProperty (hs.copied definition _ _ _ _)

theorem upholds_placeholder {key : DefinitionKey} {reference : String} {known : Option TypeId}
    {waiting : List PropertyId} :
    Upholds config s (placeholder key site reference known waiting) fun id graph =>
      site.required = true → graph.Firm id := by
  unfold placeholder
  split
  · exact upholds_instanceProperty.bind fun _ _ _ h => upholds_addProperty h
  · refine (harbors_presentProperty s.graph).upholdsThen detached_presentProperty fun property hproperty => ?_
    refine (upholds_addProperty (hproperty.addLeaf rfl)).bind fun id m _ hfirm => ?_
    exact (upholds_modify rfl).bind fun _ _ ht _ => upholds_pure fun hrequired => ht.firm id (hfirm hrequired)

theorem upholds_define (hb : Sheltering config build) {target : Target} :
    Upholds config s (define build target) fun _ _ => True := by
  have hcompleted : ∀ definition (m : Session), Upholds config m (do
      complete target.key definition
      return definition) fun _ _ => True :=
    fun _ _ => upholds_complete.bind fun _ _ _ _ => upholds_pure trivial
  have hbegun : ∀ (known : Option TypeId) (m : Session),
      Upholds config m (modify fun s : Session => s.setDefinition target.key (.inProgress known [])) fun _ _ => True :=
    fun _ _ => upholds_modify rfl
  unfold define
  simp only
  split
  · rw [bind_map_left]
    refine upholds_reserveFor.bind fun type m _ _ => (hbegun _ m).bind fun _ t _ _ => ?_
    exact (upholds_objectInto hb).bind fun definition u _ _ => hcompleted definition u
  · rw [pure_bind]
    refine (hbegun _ s).bind fun _ t _ _ => (hb t _ _).bind fun definition u _ _ => hcompleted definition u

theorem upholds_locate {reference : String} : Upholds config s (locate scope reference) fun _ _ => True := by
  unfold locate
  refine upholds_get_bind ?_
  split
  · exact upholds_pure trivial
  · exact upholds_refuse

theorem upholds_refer (hb : Sheltering config build) {reference : String} :
    Upholds config s (refer build site reference) fun id graph => site.required = true → graph.Firm id := by
  unfold refer
  refine upholds_locate.bind fun target m _ _ => upholds_get_bind ?_
  split
  · exact upholds_copy
  · exact upholds_placeholder
  · exact (upholds_define hb).bind fun _ _ _ _ => upholds_copy

/-! ## Nodes -/

theorem upholds_typed (hb : Sheltering config build) {word : String} :
    Upholds config s (typed build site node word) fun id graph => site.required = true → graph.Firm id := by
  unfold typed
  split
  · exact upholds_refuse
  · exact upholds_object hb
  · exact (upholds_ofKind hb _).bind fun _ _ _ h => upholds_complement hb h

/-- The description beside a reference is no mark. -/
theorem upholds_referred (hb : Sheltering config build) {reference : Json} :
    Upholds config s (referred build site node reference) fun id graph => site.required = true → graph.Firm id := by
  unfold referred
  split
  · refine (upholds_refer hb).bind fun id m _ hfirm => ?_
    simp only
    split
    · rename_i description _
      have hg : m.graph.Upholds (m.graph.modifyProperty id fun property =>
          { property with description := some description }) :=
        Graph.upholds_modifyProperty fun _ => Or.inl ⟨rfl, rfl⟩
      have hdescribed : Upholds config m (Build.modifyProperty id fun property =>
          { property with description := some description }) fun _ graph => site.required = true → graph.Firm id :=
        upholds_of_runs (v := ⟨⟩) (runs_modifyGraph.2 rfl) fun hm =>
          ⟨hg, hm.modifyProperty hg fun h => h, fun hrequired => hg.firm id (hfirm hrequired)⟩
      exact hdescribed.bind fun _ _ _ h => upholds_pure h
    · exact upholds_pure hfirm
  · exact upholds_malformed

theorem upholds_nodeProperty (hb : Sheltering config build) :
    Upholds config s (nodeProperty build site node) fun id graph => site.required = true → graph.Firm id := by
  have hpresent : ∀ f : Property → Build PropertyId, (∀ property, s.graph.Harbors site.required property →
      Upholds config s (f property) fun id graph => site.required = true → graph.Firm id) →
        Upholds config s (presentProperty site >>= f) fun id graph => site.required = true → graph.Firm id :=
    fun _ hf => (harbors_presentProperty s.graph).upholdsThen detached_presentProperty hf
  unfold nodeProperty
  refine Keyword.detached_normalize.upholdsThen fun normal => ?_
  split
  · exact upholds_referred hb
  · split
    · exact upholds_typed hb
    · exact upholds_union hb
    · exact upholds_malformed
    · split
      · exact upholds_object hb
      · split
        · exact hpresent _ fun _ h => upholds_complement hb ⟨h.required, h.houses⟩
        · split
          · refine hpresent _ fun property h => Keyword.detached_enumeration?.upholdsThen fun found => ?_
            cases found with
            | none => exact upholds_complement hb h
            | some values => exact upholds_complement hb (harbors_inferEnumeration h values)
          · exact hpresent _ fun _ h => upholds_complement hb h

/-- **Every bound keeps children sheltered.** -/
theorem sheltering_property : ∀ bound : Nat, Sheltering config (Building.property bound)
  | 0, _, _, _ => upholds_throw
  | bound + 1, _, _, _ => upholds_nodeProperty (sheltering_property bound)

/-! ## Documents -/

theorem upholds_rootOf {source : Source} {value : Json} :
    Upholds config s (rootOf source scope value) fun _ _ => True := by
  unfold rootOf
  split
  · refine upholds_locate.bind fun target m _ _ => ?_
    split
    · exact upholds_pure trivial
    · exact upholds_refuse
  · split
    · exact upholds_pure trivial
    · exact upholds_refuse

theorem upholds_document {source : Source} {value : Json} :
    Upholds config s (Building.document source value) fun _ _ => True := by
  unfold Building.document
  refine (upholds_modify rfl).bind fun _ m _ _ => upholds_get_bind (upholds_rootOf.bind fun found t _ _ => ?_)
  have hb : Sheltering config (Building.property (recursionBound m.documents)) := sheltering_property _
  refine upholds_reserve.bind fun type u _ _ => upholds_graph_bind ?_
  obtain ⟨root, key⟩ := found
  simp only
  cases key with
  | none => exact (upholds_fill hb).bind fun _ _ _ _ => upholds_finish.bind fun _ _ _ _ => upholds_pure trivial
  | some key =>
    refine (upholds_modify rfl).bind fun _ _ _ _ => (upholds_fill hb).bind fun _ _ _ _ => ?_
    refine upholds_finish.bind fun _ _ _ _ => upholds_instanceProperty.bind fun _ _ _ h => ?_
    exact (upholds_addProperty h).bind fun _ _ _ _ => upholds_complete.bind fun _ _ _ _ => upholds_pure trivial

end Building

namespace Session

variable {config : Config} {s : Session}

theorem sheltering_perform (config : Config) (s : Session) (call : Call) (hs : s.graph.Sheltering) :
    (s.perform config call).graph.Sheltering := by
  cases call with
  | register source value => exact hs
  | process source value =>
    have hdocument : Build.Upholds config s (Building.document source value) fun _ _ => True :=
      Building.upholds_document
    obtain ⟨hok, herror⟩ := hdocument hs
    change (s.process config source value).2.graph.Sheltering
    cases hresult : s.process config source value with
    | mk outcome s' =>
      cases outcome with
      | ok type => exact (hok type s' hresult).2.1
      | error halt => exact herror halt s' hresult

theorem sheltering_performAll (config : Config) (calls : List Call) : (performAll config calls).graph.Sheltering :=
  keeps_performs (sheltering_perform config) calls {} Graph.sheltering_empty

end Session

/-! ## What that comes to -/

/-- The check is one of a property or of a type. -/
def Graph.Carries (graph : Graph) (check : Check) : Prop :=
  (∃ id, ∃ v ∈ (graph.property id).validators.toList, v.check = check) ∨
    ∃ id, ∃ v ∈ (graph.entry id).validators.toList, v.check = check

theorem Graph.Sheltering.houses {graph : Graph} {check : Check} (h : graph.Sheltering) (hcheck : graph.Carries check) :
    graph.Houses check := by
  rcases hcheck with ⟨id, v, hv, rfl⟩ | ⟨id, v, hv, rfl⟩
  · exact h.properties id v hv
  · exact h.types id v hv

/-- Null is a value like any other for the property, whatever the settings: every null flag is off. -/
structure Property.FlagsOff (property : Property) : Prop where
  type : ∀ v ∈ property.validators.toList, ∀ kinds flag, v.check = .type kinds flag → flag = false
  enumeration : ∀ v ∈ property.validators.toList, ∀ values flag, v.check = .enumeration values flag → flag = false
  null : ∀ v ∈ property.validators.toList, ∀ flag, v.check = .implicitNull flag → flag = false

theorem Property.FollowsMarks.flagsOff {property : Property} {implicitNull : Bool}
    (h : property.FollowsMarks implicitNull) (hmarks : property.required = true ∨ property.relaxed = true) :
    property.FlagsOff := by
  have hoff : (implicitNull && !property.required && !property.strict && !property.relaxed) = false := by
    rcases hmarks with hmark | hmark
    · rw [hmark]; simp
    · rw [hmark]; simp
  refine ⟨fun v hv kinds flag hcheck => ?_, fun v hv values flag hcheck => ?_, fun v hv flag hcheck => ?_⟩
  · rw [h.type v hv kinds flag hcheck, hoff]
    rfl
  · rw [h.enumeration v hv values flag hcheck, hoff]
    rfl
  · rw [h.null v hv flag hcheck, hoff]

namespace Session

/-- **What a check applies to a part of a value, or as a branch, is strict about null**, and what is no branch is
neither required nor asked to be present: so it is in every graph that calls leave, failed ones included, whichever way
the property came about. -/
theorem children_performAll (config : Config) (calls : List Call) {check : Check} {child : PropertyId}
    (hcheck : (performAll config calls).graph.Carries check) (hchild : child ∈ check.children) :
    (performAll config calls).graph.HasProperty child ∧
      ((performAll config calls).graph.property child).FlagsOff ∧
      (Building.isComposed check = false →
        ((performAll config calls).graph.property child).required = false ∧
          ((performAll config calls).graph.property child).validators.hasRequired = false) := by
  have hhouses := (sheltering_performAll config calls).houses hcheck
  have hmarks := ((orderly_performAll config calls).inStep child).followsMarks
  have hfirm := hhouses.firm child hchild
  refine ⟨hfirm.hasProperty, hmarks.flagsOff hfirm, fun hplain => ?_⟩
  have hsheltered := hhouses.sheltered hplain child hchild
  refine ⟨hsheltered.required, List.any_eq_false.2 fun v hv => ?_⟩
  rw [hmarks.absent (by rw [hsheltered.relaxed]; simp) v hv]
  simp

/-- A list of lists of itself: its items are relaxed while the list is being built, and filled in afterwards. -/
def listOfLists : Json :=
  .object [("type", .string "object"),
    ("definitions", .object [("list", .object [("type", .string "array"),
      ("items", .object [("$ref", .string "#/definitions/list")])])]),
    ("properties", .object [("l", .object [("$ref", .string "#/definitions/list")])])]

set_option maxRecDepth 100000 in
/-- The items of the list are strict about null, and lists. -/
theorem children_listOfLists : ∃ check child,
    (performAll oneName [.process ⟨"t", "", "T"⟩ listOfLists]).graph.Carries check ∧ child ∈ check.children ∧
      Building.isComposed check = false ∧
      ((performAll oneName [.process ⟨"t", "", "T"⟩ listOfLists]).graph.property child).FlagsOff ∧
      ((performAll oneName [.process ⟨"t", "", "T"⟩ listOfLists]).graph.property child).declaredKinds? = some [.array] ∧
      ((performAll oneName [.process ⟨"t", "", "T"⟩ listOfLists]).graph.property child).required = false := by
  have hfacts : ((performAll oneName [.process ⟨"t", "", "T"⟩ listOfLists]).graph.property ⟨1⟩).validators.toList.any
        (fun v => !Building.isComposed v.check && v.check.children.contains ⟨0⟩) = true ∧
      ((performAll oneName [.process ⟨"t", "", "T"⟩ listOfLists]).graph.property ⟨0⟩).declaredKinds? =
        some [.array] := by decide +kernel
  obtain ⟨v, hv, hitem⟩ := List.any_eq_true.1 hfacts.1
  rw [Bool.and_eq_true, Bool.not_eq_true', List.contains_iff_mem] at hitem
  have hcarries : (performAll oneName [.process ⟨"t", "", "T"⟩ listOfLists]).graph.Carries v.check :=
    Or.inl ⟨⟨1⟩, v, hv, rfl⟩
  obtain ⟨_, hoff, hplain⟩ := children_performAll oneName [.process ⟨"t", "", "T"⟩ listOfLists] hcarries hitem.2
  exact ⟨v.check, ⟨0⟩, hcarries, hitem.2, hitem.1, hoff, hfacts.2, (hplain hitem.1).1⟩

end Session
end SchemaTypes
