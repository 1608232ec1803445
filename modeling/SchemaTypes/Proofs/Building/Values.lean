import SchemaTypes.Building.Kinds
import SchemaTypes.Building.Compositions
import SchemaTypes.Proofs.Building.Contracts
/-!
# Contracts of keywords and properties

Reading keywords changes nothing.  The keywords of a value, of a kind and of compositions turn a property that
waits for nothing into another one, building the properties their checks lead to on the way.
-/
namespace SchemaTypes.Building
namespace Env

variable {env : Env} {name keyword : String} {node : Json}

/-! ## Keywords -/

theorem ensures_count? : env.Ensures (Keyword.count? name node keyword) fun _ _ => True := by
  unfold Keyword.count?
  split
  · exact ensures_pure fun _ => trivial
  · split
    · exact ensures_pure fun _ => trivial
    · exact ensures_malformed

theorem ensures_number? : env.Ensures (Keyword.number? name node keyword) fun _ _ => True := by
  unfold Keyword.number?
  split
  · exact ensures_pure fun _ => trivial
  · exact ensures_pure fun _ => trivial
  · exact ensures_malformed

theorem ensures_flag : env.Ensures (Keyword.flag name node keyword) fun _ _ => True := by
  unfold Keyword.flag
  split
  · exact ensures_pure fun _ => trivial
  · exact ensures_pure fun _ => trivial
  · exact ensures_malformed

/-- The members read are those of the node. -/
theorem ensures_members? : env.Ensures (Keyword.members? name node keyword) fun found _ =>
    ∀ members, found = some members → references (.object members) ⊆ references node := by
  unfold Keyword.members?
  split
  · exact ensures_pure fun _ _ hnone => nomatch hnone
  · rename_i members hget
    refine ensures_pure fun _ found heq => ?_
    cases heq
    exact references_subset_get hget
  · exact ensures_malformed

theorem ensures_strings {reason : String} {values : List Json} :
    env.Ensures (Keyword.strings name reason values) fun _ _ => True := by
  unfold Keyword.strings
  refine (ensures_mapM (q := fun _ => True) fun value _ => ?_).imp fun _ _ _ => trivial
  split
  · exact ensures_pure fun _ => trivial
  · exact ensures_malformed

theorem ensures_requiredNames : env.Ensures (Keyword.requiredNames name node) fun _ _ => True := by
  unfold Keyword.requiredNames
  split
  · exact ensures_pure fun _ => trivial
  · exact ensures_strings
  · exact ensures_malformed

theorem ensures_pattern {source : String} : env.Ensures (Keyword.pattern name source) fun _ _ => True := by
  unfold Keyword.pattern
  split
  · exact ensures_pure fun _ => trivial
  · exact ensures_refuse

theorem ensures_enumeration? : env.Ensures (Keyword.enumeration? name node) fun _ _ => True := by
  unfold Keyword.enumeration?
  split
  · exact ensures_pure fun _ => trivial
  · exact ensures_refuse
  · exact ensures_pure fun _ => trivial
  · exact ensures_malformed

/-- The branches read are parts of the node. -/
theorem ensures_branches? {combinator : Combinator} :
    env.Ensures (Keyword.branches? name node combinator) fun found _ =>
      ∀ nodes, found = some nodes → ∀ inner ∈ nodes, references inner ⊆ references node := by
  unfold Keyword.branches?
  split
  · exact ensures_pure fun _ _ hnone => nomatch hnone
  · rename_i inner hget
    refine ensures_pure fun _ found heq other hother => ?_
    cases heq
    rw [List.mem_singleton.1 hother]
    exact references_subset_get hget
  · rename_i nodes _ hget
    refine ensures_pure fun _ found heq inner hinner => ?_
    cases heq
    refine List.Subset.trans ?_ (references_subset_get hget)
    rw [references]
    exact references_subset_items hinner
  · exact ensures_malformed

/-- A normalised node spells the same references or none. -/
theorem ensures_normalize : env.Ensures (Keyword.normalize name node) fun normal _ =>
    references normal ⊆ references node ∧ ∀ value, normal.get? "$ref" = some value → normal = node := by
  unfold Keyword.normalize
  split
  · exact ensures_pure fun _ => ⟨List.Subset.refl _, fun _ _ => rfl⟩
  · rename_i value
    refine ensures_pure fun _ => ⟨?_, fun reference href => ?_⟩
    · rw [references_ofBool]
      exact List.nil_subset _
    · cases value with
      | true => cases href
      | false => cases href
  · exact ensures_malformed

/-! ## Properties without checks of their own -/

theorem ensures_newProperty {required : Bool} :
    env.Ensures (Build.newProperty name required) fun property _ => property.defers = false := by
  unfold Build.newProperty
  split
  · exact ensures_pure fun _ => rfl
  · exact ensures_refuse

theorem ensures_presentProperty {site : Site} :
    env.Ensures (Build.presentProperty site) fun property _ => property.defers = false := by
  unfold Build.presentProperty
  refine ensures_newProperty.bind fun property hclean => ensures_pure fun _ => ?_
  split
  · rw [Property.defers_addCheck, hclean]
    rfl
  · exact hclean

/-! ## Keywords every property has -/

variable {property : Property} {required : Bool}

theorem defers_describe (hclean : property.defers = false) : (describe property node).defers = false := by
  unfold describe
  split
  · exact hclean
  · exact hclean

theorem defers_constant (hclean : property.defers = false) : (constant property node).defers = false := by
  unfold constant
  split
  · rw [Property.defers_addCheck, hclean]
    rfl
  · exact hclean

theorem ensures_enumerate (hclean : property.defers = false) :
    env.Ensures (enumerate property node required) fun property _ => property.defers = false := by
  unfold enumerate
  refine ensures_enumeration?.andThen fun found => ?_
  cases found with
  | none => exact ensures_pure fun _ => hclean
  | some values =>
    refine ensures_allowsNull.andThen fun allowed => ?_
    have hadded : ∀ check : Check, check.isDeferred = false → (property.addCheck check).defers = false := by
      intro check hcheck
      rw [Property.defers_addCheck, hclean, hcheck]
      rfl
    simp only
    split
    · refine ensures_read.andThen fun config => ensures_pure fun _ => ?_
      rw [Property.defers_stampRequired]
      exact hadded _ rfl
    · exact ensures_pure fun _ => hadded _ rfl

theorem ensures_filterEntry {entry : Json} : env.Ensures (filterEntry property entry) fun _ _ => True := by
  unfold filterEntry
  split
  · exact ensures_pure fun _ => trivial
  · split
    · exact ensures_pure fun _ => trivial
    · exact ensures_malformed
  · exact ensures_malformed

theorem ensures_applyFilter {entry : Json} (hclean : property.defers = false) :
    env.Ensures (applyFilter property entry) fun property _ => property.defers = false := by
  unfold applyFilter
  refine ensures_filterEntry.andThen fun found => ?_
  obtain ⟨filterName, options⟩ := found
  refine ensures_read.andThen fun config => ?_
  split
  · exact ensures_refuse
  · split
    · refine ensures_pure fun _ => ?_
      rw [Property.defers_addCheck, hclean]
      rfl
    · exact ensures_refuse

theorem ensures_applyFilters (hclean : property.defers = false) :
    env.Ensures (applyFilters property node) fun property _ => property.defers = false := by
  unfold applyFilters
  split
  · exact ensures_pure fun _ => hclean
  · exact ensures_foldlM hclean fun entry _ property hproperty => ensures_applyFilter hproperty
  · exact ensures_applyFilter hclean

theorem ensures_applyDefault (hclean : property.defers = false) :
    env.Ensures (applyDefault property node) fun property _ => property.defers = false := by
  unfold applyDefault
  split
  · exact ensures_pure fun _ => hclean
  · split
    · exact ensures_pure fun _ => hclean
    · exact ensures_refuse

theorem ensures_applyValueKeywords (hclean : property.defers = false) :
    env.Ensures (applyValueKeywords property node required) fun property _ => property.defers = false := by
  unfold applyValueKeywords
  refine (ensures_enumerate (defers_describe hclean)).bind fun property hproperty => ?_
  refine (ensures_applyFilters (defers_constant hproperty)).bind fun property hproperty => ?_
  exact ensures_applyDefault hproperty

/-- A node that asks nothing of a value as a whole adds no demand. -/
theorem ensures_applyValueKeywords_of_bare (hbare : IsBare node) :
    env.Ensures (applyValueKeywords property node required) fun result _ => result.demands = property.demands := by
  obtain ⟨henum, hconst, hfilter⟩ := hbare
  unfold applyValueKeywords enumerate Keyword.enumeration?
  rw [henum]
  refine Ensures.bind (q := fun result => result.demands = property.demands) ?_ fun result hresult => ?_
  · refine Ensures.bind (q := fun found => found = none) (ensures_pure fun _ => rfl) fun found hfound => ?_
    subst hfound
    refine ensures_pure fun _ => ?_
    unfold describe
    split
    · rfl
    · rfl
  · unfold constant applyFilters applyDefault
    rw [hconst, hfilter]
    refine Ensures.bind (q := fun final => final.demands = property.demands) (ensures_pure fun _ => hresult)
      fun final hfinal => ?_
    split
    · exact ensures_pure fun _ => hfinal
    · split
      · exact ensures_pure fun _ => hfinal
      · exact ensures_refuse

/-! ## Builders -/

/-- What a builder leaves for a node: a property that waits for nothing, unless the node is a reference to a
definition without a type of its own that is being built. -/
def Leaves (env : Env) (node : Json) (id : PropertyId) (s : Session) : Prop :=
  env.tidy → s.Settled id ∨ ∃ reference target, node.get? "$ref" = some (.string reference) ∧
    targetIn? s.documents env.document reference = some target ∧ s.InProgress target.key none

/-- The builder keeps to the contract in this environment. -/
def Accepts (env : Env) (build : Builder) : Prop :=
  ∀ (site : Site) (node : Json), site.scope.document = env.document → references node ⊆ env.spelled →
    env.Ensures (build site node) (env.Leaves node)

variable {build : Builder} {scope : Scope} {site : Site}

theorem ensures_nested (hb : env.Accepts build) (hd : scope.document = env.document)
    (hr : references node ⊆ env.spelled) : env.Ensures (Build.nested build scope name node) fun _ _ => True := by
  unfold Build.nested
  refine (hb _ node hd hr).andThen fun id => ensures_relax.andThen fun _ => ?_
  exact ensures_pure fun _ => trivial

/-! ## Properties of a declared kind -/

theorem defers_addCheck_of (hclean : property.defers = false) {check : Check} (hcheck : check.isDeferred = false) :
    (property.addCheck check).defers = false := by
  rw [Property.defers_addCheck, hclean, hcheck]
  rfl

theorem ensures_refuseFormat : env.Ensures (refuseFormat property node) fun _ _ => True := by
  unfold refuseFormat
  split
  · exact ensures_pure fun _ => trivial
  · exact ensures_refuse
  · exact ensures_refuse

theorem ensures_addPattern (hclean : property.defers = false) :
    env.Ensures (addPattern property node) fun property _ => property.defers = false := by
  unfold addPattern
  split
  · exact ensures_pure fun _ => hclean
  · exact ensures_pattern.andThen fun pattern => ensures_pure fun _ => defers_addCheck_of hclean rfl
  · exact ensures_malformed

theorem ensures_addCount {check : Nat → Check} (hcheck : ∀ n, (check n).isDeferred = false)
    (hclean : property.defers = false) :
    env.Ensures (addCount property node keyword check) fun property _ => property.defers = false := by
  unfold addCount
  refine ensures_count?.andThen fun found => ?_
  cases found with
  | none => exact ensures_pure fun _ => hclean
  | some n => exact ensures_pure fun _ => defers_addCheck_of hclean (hcheck n)

theorem ensures_addStringChecks (hclean : property.defers = false) :
    env.Ensures (addStringChecks property node) fun property _ => property.defers = false := by
  unfold addStringChecks
  refine ensures_refuseFormat.andThen fun _ => ?_
  refine (ensures_addPattern hclean).bind fun property hproperty => ?_
  refine (ensures_addCount (fun _ => rfl) hproperty).bind fun property hproperty => ?_
  exact ensures_addCount (fun _ => rfl) hproperty

theorem ensures_addBound {exclusiveKeyword : String} {check : Number → Bool → Check}
    (hcheck : ∀ limit exclusive, (check limit exclusive).isDeferred = false) (hclean : property.defers = false) :
    env.Ensures (addBound property node keyword exclusiveKeyword check) fun property _ =>
      property.defers = false := by
  unfold addBound
  refine ensures_number?.andThen fun found => ?_
  cases found with
  | none =>
    simp only
    split
    · exact ensures_pure fun _ => hclean
    · exact ensures_pure fun _ => hclean
    · exact ensures_pure fun _ => defers_addCheck_of hclean (hcheck _ _)
    · exact ensures_malformed
  | some limit =>
    simp only
    split
    · exact ensures_pure fun _ => defers_addCheck_of hclean (hcheck _ _)
    · exact ensures_pure fun _ => defers_addCheck_of hclean (hcheck _ _)
    · exact ensures_pure fun _ => defers_addCheck_of (defers_addCheck_of hclean (hcheck _ _)) (hcheck _ _)
    · exact ensures_malformed

theorem ensures_addNumberChecks (hclean : property.defers = false) :
    env.Ensures (addNumberChecks property node) fun property _ => property.defers = false := by
  unfold addNumberChecks
  refine (ensures_addBound (fun _ _ => rfl) hclean).bind fun property hproperty => ?_
  refine (ensures_addBound (fun _ _ => rfl) hproperty).bind fun property hproperty => ?_
  refine ensures_number?.andThen fun found => ?_
  cases found with
  | none => exact ensures_pure fun _ => hproperty
  | some divisor => exact ensures_pure fun _ => defers_addCheck_of hproperty rfl

theorem ensures_addTuple (hb : env.Accepts build) (hd : scope.document = env.document) {items : List Json}
    (hitems : ∀ item ∈ items, references item ⊆ env.spelled) (hr : references node ⊆ env.spelled)
    (hclean : property.defers = false) :
    env.Ensures (addTuple build scope property items node) fun property _ => property.defers = false := by
  unfold addTuple
  have hpositions : env.Ensures (items.zipIdx.mapM fun x =>
      Build.nested build scope ("tuple item #" ++ toString x.2 ++ " of array " ++ property.name) x.1)
      fun _ _ => True :=
    (ensures_mapM (q := fun _ => True) fun x hx =>
      ensures_nested hb hd (hitems x.1 (List.fst_mem_of_mem_zipIdx hx))).imp fun _ _ _ => trivial
  refine hpositions.andThen fun positions => ?_
  simp only
  split
  · exact ensures_pure fun _ => defers_addCheck_of hclean rfl
  · exact ensures_pure fun _ => defers_addCheck_of hclean rfl
  · exact ensures_pure fun _ => defers_addCheck_of (defers_addCheck_of hclean rfl) rfl
  · rename_i members hget
    refine (ensures_nested hb hd (List.Subset.trans (references_subset_get hget) hr)).andThen fun item => ?_
    exact ensures_pure fun _ => defers_addCheck_of (defers_addCheck_of hclean rfl) rfl
  · exact ensures_malformed

theorem ensures_addItems (hb : env.Accepts build) (hd : scope.document = env.document)
    (hr : references node ⊆ env.spelled) (hclean : property.defers = false) :
    env.Ensures (addItems build scope property node) fun property _ => property.defers = false := by
  unfold addItems
  split
  · exact ensures_pure fun _ => hclean
  · rename_i items hget
    refine ensures_addTuple hb hd (fun item hitem => ?_) hr hclean
    refine List.Subset.trans ?_ (List.Subset.trans (references_subset_get hget) hr)
    rw [references]
    exact references_subset_items hitem
  · rename_i item _ hget
    refine (ensures_nested hb hd (List.Subset.trans (references_subset_get hget) hr)).andThen fun id => ?_
    exact ensures_pure fun _ => defers_addCheck_of hclean rfl

theorem ensures_addContains (hb : env.Accepts build) (hd : scope.document = env.document)
    (hr : references node ⊆ env.spelled) (hclean : property.defers = false) :
    env.Ensures (addContains build scope property node) fun property _ => property.defers = false := by
  unfold addContains
  split
  · exact ensures_pure fun _ => hclean
  · rename_i item hget
    refine (ensures_nested hb hd (List.Subset.trans (references_subset_get hget) hr)).andThen fun id => ?_
    exact ensures_pure fun _ => defers_addCheck_of hclean rfl

theorem ensures_addArrayChecks (hb : env.Accepts build) (hd : scope.document = env.document)
    (hr : references node ⊆ env.spelled) (hclean : property.defers = false) :
    env.Ensures (addArrayChecks build scope property node) fun property _ => property.defers = false := by
  unfold addArrayChecks
  refine (ensures_addCount (fun _ => rfl) hclean).bind fun property hproperty => ?_
  refine (ensures_addCount (fun _ => rfl) hproperty).bind fun property hproperty => ?_
  refine ensures_flag.andThen fun unique => ?_
  have hunique : (if unique then property.addCheck .uniqueItems else property).defers = false := by
    split
    · exact defers_addCheck_of hproperty rfl
    · exact hproperty
  refine (ensures_addItems hb hd hr hunique).bind fun property hproperty => ?_
  exact ensures_addContains hb hd hr hproperty

theorem ensures_addKindChecks (hb : env.Accepts build) (hd : scope.document = env.document)
    (hr : references node ⊆ env.spelled) (hclean : property.defers = false) (kind : Kind) :
    env.Ensures (addKindChecks build scope kind property node) fun property _ => property.defers = false := by
  unfold addKindChecks
  split
  · exact ensures_addStringChecks hclean
  · exact ensures_addNumberChecks hclean
  · exact ensures_addNumberChecks hclean
  · exact ensures_addArrayChecks hb hd hr hclean
  · exact ensures_pure fun _ => hclean
  · exact ensures_pure fun _ => hclean
  · exact ensures_pure fun _ => hclean

theorem ensures_ofKind (hb : env.Accepts build) (hd : site.scope.document = env.document)
    (hr : references node ⊆ env.spelled) (kind : Kind) :
    env.Ensures (ofKind build site node kind) fun property _ => property.defers = false := by
  unfold ofKind
  refine ensures_presentProperty.bind fun property hproperty => ?_
  refine ensures_allowsNull.andThen fun allowed => ?_
  refine ensures_addKindChecks hb hd hr ?_ kind
  exact defers_addCheck_of hproperty rfl

/-! ## Compositions on a property -/

theorem ensures_noteIfEmpty {combinator : Combinator} {branches : List Json} :
    env.Ensures (noteIfEmpty combinator name branches) fun _ _ => True := by
  unfold noteIfEmpty
  split
  · exact ensures_notify
  · exact ensures_pure fun _ => trivial

theorem ensures_branch (hb : env.Accepts build) (hd : site.scope.document = env.document)
    (hr : references node ⊆ env.spelled) : env.Ensures (branch build site node) fun _ _ => True := by
  unfold branch
  refine (hb { scope := site.scope, name := site.name, required := true } node hd hr).andThen fun id => ?_
  simp only
  split
  · exact ensures_relax.andThen fun _ => ensures_pure fun _ => trivial
  · exact ensures_pure fun _ => trivial

theorem defers_inferLabel (hclean : property.defers = false) (labels : List (Option TypeLabel)) :
    (inferLabel property labels).defers = false := by
  unfold inferLabel
  split
  · split
    · exact (property.defers_addDecorator _).trans hclean
    · exact hclean
  · exact hclean

theorem ensures_addComposition (hb : env.Accepts build) (hd : site.scope.document = env.document)
    (hr : references node ⊆ env.spelled) (hclean : property.defers = false) (combinator : Combinator) :
    env.Ensures (addComposition build site node property combinator) fun property _ =>
      property.defers = false := by
  unfold addComposition
  refine ensures_branches?.bind fun found hfound => ?_
  cases found with
  | none => exact ensures_pure fun _ => hclean
  | some nodes =>
    refine ensures_noteIfEmpty.andThen fun _ => ?_
    have hbranches : env.Ensures (nodes.mapM fun inner => branch build site (Keyword.inheritType node inner))
        fun _ _ => True :=
      (ensures_mapM (q := fun _ => True) fun inner hinner =>
        ensures_branch hb hd (references_branch hr (hfound nodes rfl inner hinner))).imp fun _ _ _ => trivial
    refine hbranches.andThen fun ids => ?_
    refine ensures_graph.andThen fun graph => ensures_pure fun _ => ?_
    refine defers_addCheck_of ?_ rfl
    split
    · exact defers_inferLabel hclean _
    · exact hclean

/-- The check of a conditional waits for nothing. -/
theorem ensures_conditional? {buildBranch : Json → Build PropertyId} {onObject : Bool}
    (hbuild : ∀ inner, references inner ⊆ references node →
      env.Ensures (buildBranch inner) fun _ _ => True) :
    env.Ensures (conditional? buildBranch name node onObject) fun found _ =>
      ∀ check, found = some check → check.isDeferred = false := by
  unfold conditional?
  split
  · exact ensures_pure fun _ _ hnone => nomatch hnone
  · rename_i condition hget
    split
    · refine (hbuild _ (references_subset_get hget)).andThen fun premise => ?_
      refine (ensures_option_mapM (q := fun _ => True) fun inner hinner =>
        hbuild inner (references_subset_get hinner)).andThen fun consequent => ?_
      refine (ensures_option_mapM (q := fun _ => True) fun inner hinner =>
        hbuild inner (references_subset_get hinner)).andThen fun alternative => ?_
      refine ensures_pure fun _ check heq => ?_
      cases heq
      rfl
    · refine ensures_notify.andThen fun _ => ensures_pure fun _ _ hnone => nomatch hnone

theorem ensures_applyCompositions (hb : env.Accepts build) (hd : site.scope.document = env.document)
    (hr : references node ⊆ env.spelled) (hclean : property.defers = false) :
    env.Ensures (applyCompositions build site node property) fun property _ => property.defers = false := by
  unfold applyCompositions
  refine (ensures_foldlM (q := fun property => property.defers = false) hclean fun combinator _ property hproperty =>
    ensures_addComposition hb hd hr hproperty combinator).bind fun property hproperty => ?_
  refine (ensures_conditional? fun inner hinner =>
    ensures_branch hb hd (references_branch hr hinner)).bind fun conditional hconditional => ?_
  have hadded : ((conditional.map property.addCheck).getD property).defers = false := by
    cases conditional with
    | none => exact hproperty
    | some check => exact defers_addCheck_of hproperty (hconditional check rfl)
  simp only
  split
  · exact ensures_allowsNull.andThen fun allowed => ensures_pure fun _ => defers_addCheck_of hadded rfl
  · exact ensures_pure fun _ => hadded

end Env
end SchemaTypes.Building
