import SchemaTypes.Proofs.Building.TrailFills
/-!
# Types and unions, deed by deed

An object's type is reserved, filled in and finished, and the property made for it holds what is generated for the type
from then on (`Trail.runs_materialize`).  A union takes at most one object in, whose class its label names beside kinds.
-/
namespace SchemaTypes

namespace TypeLabel

theorem mem_distinct {names : List String} {x : String} : x ∈ distinct names ↔ x ∈ names := by
  have hfold : ∀ (names start : List String), x ∈ names.foldl addName start ↔ x ∈ start ∨ x ∈ names := by
    intro names
    induction names with
    | nil => simp
    | cons name rest ih =>
      intro start
      rw [List.foldl_cons, ih, mem_addName, List.mem_cons, or_assoc]
  unfold distinct
  rw [hfold]
  simp

end TypeLabel

namespace Building
namespace Trail

variable {trail : Trail} {build : Builder} {scope : Scope} {site : Site} {node : Json} {draft property : Property}
  {type target : TypeId} {id : PropertyId} {s m s' : Session}

/-! ## From reserving to finishing -/

/-- As `After`, except that the type has been finished in between. -/
structure AfterFinishing (trail : Trail) (type : TypeId) (s s' : Session) : Prop where
  deeds : Session.Deeds trail.config trail.traced s s'
  inProgress : ∀ key found, s'.InProgress key found ↔ s.InProgress key found
  finishedOne : s.FinishedOne type s'

theorem AfterFinishing.after (h : trail.AfterFinishing type s m) (h' : trail.After m s') :
    trail.AfterFinishing type s s' :=
  ⟨h.deeds.trans h'.deeds, fun key found => (h'.inProgress key found).trans (h.inProgress key found),
    h.finishedOne.trans h'.asFinished⟩

theorem reserved_reserve (s : Session) (namespaceName className : String) (isRoot : Bool) :
    s.Reserved ⟨s.graph.types.size⟩ (s.withGraph (s.graph.reserve namespaceName className isRoot).2) := by
  have hunfinished := Course.unfinished_reserve s namespaceName className isRoot
  exact ⟨Nat.lt_irrefl _, ((hunfinished _).2 (Or.inr rfl)).hasType, hunfinished⟩

theorem runs_reserveFor {config : Config} (h : (reserveFor site node).Runs config s type m) :
    s.Reserved type m ∧ ∃ className, m = s.withGraph (s.graph.reserve site.scope.namespaceName className false).2 := by
  unfold reserveFor at h
  simp only at h
  rw [Build.runs_read_bind] at h
  obtain ⟨rfl, rfl⟩ := Build.runs_reserve.1 h
  exact ⟨reserved_reserve s _ _ _, _, rfl⟩

theorem Ready.reserved (h : trail.Ready s) (namespaceName className : String) (isRoot : Bool) :
    trail.Ready (s.withGraph (s.graph.reserve namespaceName className isRoot).2) := by
  have hunfinished := (reserved_reserve s namespaceName className isRoot).unfinished
  have hdeed : Session.Deed trail.config trail.traced s _ := .reserve namespaceName className isRoot
  exact ⟨h.distinct, h.collapsed.reserve namespaceName className isRoot,
    fun htraced key type hkey => (hunfinished type).2 (Or.inl (h.unfinished htraced key type hkey)), h.describes,
    h.leads, fun htraced => hdeed.marked htraced (h.marked htraced),
    fun type htype => (hunfinished type).2 (Or.inl (h.filling type htype))⟩

/-- To a session from before the type was reserved, nothing is left unfinished. -/
theorem AfterFinishing.reserved {namespaceName className : String} {isRoot : Bool}
    (hreserved : s.Reserved type (s.withGraph (s.graph.reserve namespaceName className isRoot).2))
    (h : trail.AfterFinishing type (s.withGraph (s.graph.reserve namespaceName className isRoot).2) s') :
    trail.After s s' :=
  ⟨.head (.reserve _ _ _) h.deeds, h.inProgress, hreserved.asFinished h.finishedOne⟩

theorem finishedOne_finish {config : Config} (h : (finish type).Runs config s target s') :
    s.FinishedOne type s' := by
  obtain ⟨redirect, _, _, _, hgraph⟩ := Session.runs_finish h
  have hsize : s'.graph.types.size = s.graph.types.size := hgraph ▸ Session.size_modifyType _ _ _
  intro id
  have hentry : s'.graph.entry id = _ := congrArg (Graph.entry · id) hgraph
  rw [Session.entry_modifyType_eq] at hentry
  constructor
  · rintro ⟨hlt, hsignature⟩
    have hlt : id.index < s.graph.types.size := Nat.lt_of_lt_of_eq hlt hsize
    rw [hentry] at hsignature
    split at hsignature
    · cases hsignature
    · rename_i hother
      exact ⟨⟨hlt, hsignature⟩, fun heq => hother ⟨congrArg _ heq, hlt⟩⟩
  · rintro ⟨hu, hne⟩
    refine ⟨Nat.lt_of_lt_of_eq hu.hasType hsize.symm, ?_⟩
    rw [hentry, if_neg]
    · exact hu.signature
    · rintro ⟨heq, _⟩
      exact hne (by cases id; cases type; exact congrArg _ heq)

/-- **Finishing answers what is generated for the type**, and that lasts. -/
theorem runs_finish (hs : s.Collapsed) (hu : s.Unfinished type) (h : (finish type).Runs trail.config s target s') :
    trail.AfterFinishing type s s' ∧ (s'.graph.entry type).signature ≠ none ∧ s'.Lasts target ∧
      s'.graph.canonical type = target := by
  have hdeed : Session.Deed trail.config trail.traced s s' := .finish hu h
  have hs' := (hdeed.precedes.collapsed hs).toRegistered
  obtain ⟨redirect, hfinishes, _, hdefinitions, hgraph⟩ := Session.runs_finish h
  have hself := (congrArg (Graph.entry · type) hgraph).trans (Session.entry_modifyType _ _ hu.hasType)
  have hsignature : (s'.graph.entry type).signature ≠ none := fun hnone =>
    nomatch (congrArg ObjectType.signature hself).symm.trans hnone
  have hredirect : (s'.graph.entry type).redirect = redirect := by
    refine (congrArg ObjectType.redirect hself).trans ?_
    rw [hs.unredirected hu]
    cases redirect <;> rfl
  refine ⟨⟨.single hdeed, fun key found => ?_, finishedOne_finish h⟩, hsignature, ?_⟩
  · unfold Session.InProgress Session.definition?
    rw [hdefinitions]
  · have hkept : redirect = none → s'.Lasts type ∧ s'.graph.canonical type = type := fun hnone =>
      ⟨⟨hsignature, hredirect.trans hnone⟩, by rw [hs'.canonical_eq, hredirect, hnone]; rfl⟩
    generalize s'.signatures = signatures at hfinishes
    cases hfinishes with
    | kept => exact hkept rfl
    | first => exact hkept rfl
    | @duplicate existing hexisting =>
      obtain ⟨hstands, text, _, htext⟩ := hs'.redirects type _ hredirect
      have hcanonical : s'.graph.canonical type = s.graph.canonical existing := by
        rw [hs'.canonical_eq, hredirect]
        rfl
      exact ⟨⟨(fun hnone => nomatch hnone.symm.trans htext), hstands⟩, hcanonical⟩

/-- An instance of a type that lasts fits. -/
theorem fits_instanceProperty {config : Config} {name : String} {required : Bool} (hlasts : s.Lasts type)
    (h : (instanceProperty name type required).Runs config s property s') :
    s' = s ∧ s.Fits config property ∧ property.nested = some type ∧
      property.label = some (.single (s.graph.entry type).name.className) := by
  obtain ⟨rfl, hadmitted, hnested, hlabel, hown⟩ := runs_instanceProperty h
  have hself : s'.graph.className type = (s'.graph.entry type).name.className := by
    unfold Graph.className Graph.type Graph.canonical
    rw [Graph.follow_eq_self hlasts.redirect]
  rw [hself] at hlabel
  have hnames : property.names = [(s'.graph.entry type).name.className] := by
    unfold Property.names
    rw [hlabel]
    rfl
  refine ⟨rfl, ⟨hadmitted, hown, fun other hother => ?_, fun other hother => ?_⟩, hnested, hlabel⟩
  · rw [hnested] at hother
    cases hother
    exact hlasts
  · rw [hnested] at hother
    cases hother
    refine ⟨by rw [hnames]; exact List.mem_cons_self, fun name hname => Or.inl ?_⟩
    rw [hnames] at hname
    exact List.mem_singleton.1 hname

/-- **A reserved type is filled in and finished**, and the property made for it holds what is generated for it. -/
theorem runs_materialize (hb : trail.Accepts build) (hd : site.scope.document = trail.document)
    (hr : references node ⊆ trail.spelled) (hs : trail.Ready s) (hu : s.Unfinished type)
    (h : (materialize build site node type).Runs trail.config s property s') :
    trail.AfterFinishing type s s' ∧ (s'.graph.entry type).signature ≠ none ∧ s'.Fits trail.config property ∧
      property.nested = some (s'.graph.canonical type) ∧
      property.label = some (.single (s'.graph.entry (s'.graph.canonical type)).name.className) := by
  unfold materialize at h
  simp only at h
  rw [Build.runs_graph_bind] at h
  obtain ⟨_, m, hfill, hrest⟩ := Build.runs_bind.1 h
  obtain ⟨target, m', hfinish, hinstance⟩ := Build.runs_bind.1 hrest
  have hfilled := after_fill hb (by exact hd) hr hs hu hfill
  obtain ⟨hfinished, hsignature, hlasts, rfl⟩ :=
    runs_finish (hs.after hfilled).collapsed ((hfilled.asFinished type).2 hu) hfinish
  obtain ⟨rfl, hfits, hnested, hlabel⟩ := fits_instanceProperty hlasts hinstance
  have hone := hfilled.asFinished.finishedOne hfinished.finishedOne
  refine ⟨⟨hfilled.deeds.trans hfinished.deeds, fun key found => ?_, hone⟩,
    hsignature, hfits, hnested, hlabel⟩
  exact (hfinished.inProgress key found).trans (hfilled.inProgress key found)

/-- The property of an object embodies the type that was reserved for it, and is a new one. -/
theorem runs_objectInto (hb : trail.Accepts build) (hd : site.scope.document = trail.document)
    (hr : references node ⊆ trail.spelled) (hs : trail.Ready s) (hu : s.Unfinished type)
    (h : (objectInto build site node type).Runs trail.config s id s') :
    trail.AfterFinishing type s s' ∧ s'.Embodies id type ∧ s'.Own id := by
  unfold objectInto at h
  obtain ⟨property, m, hmaterialize, hrest⟩ := Build.runs_bind.1 h
  obtain ⟨hfinished, hsignature, hfits, hnested, _⟩ := runs_materialize hb hd hr hs hu hmaterialize
  obtain ⟨result, m', hkeywords, hadd⟩ := Build.runs_bind.1 hrest
  obtain ⟨rfl, hrefines⟩ := tells_applyValueKeywords hkeywords
  obtain ⟨rfl, rfl⟩ := Build.runs_addProperty.1 hadd
  refine ⟨hfinished.after (after_addProperty (hfits.refines hrefines)), ⟨hsignature, ?_⟩,
    Session.own_addProperty m' (hfits.refines hrefines).own⟩
  refine (congrArg Property.nested (Graph.property_addProperty _ _)).trans ?_
  rw [hrefines.nested, hnested]
  have hadded : trail.After m' (m'.withGraph (m'.graph.addProperty result).2) :=
    after_addProperty (hfits.refines hrefines)
  exact congrArg some (hadded.deeds.canonical (hfinished.deeds.precedes.collapsed hs.collapsed) hsignature).symm

theorem makes_object (hb : trail.Accepts build) (hd : site.scope.document = trail.document)
    (hr : references node ⊆ trail.spelled) : trail.Makes (object build site node) := by
  intro s id s' hs hrun
  obtain ⟨type, m, hreserve, hobject⟩ := Build.runs_bind.1 hrun
  obtain ⟨hreserved, className, rfl⟩ := runs_reserveFor hreserve
  obtain ⟨hfinished, _, hown⟩ := runs_objectInto hb hd hr (hs.reserved _ _ _)
    ((hreserved.unfinished type).2 (Or.inr rfl)) hobject
  exact ⟨hfinished.reserved hreserved, fun _ => hown⟩

/-! ## Unions -/

/-- A union in the making: besides the type it holds, its label names kinds. -/
structure Joined (config : Config) (s : Session) (property : Property) : Prop where
  fits : s.Fits config property
  kinds : property.nested = none → ∀ name ∈ property.names, ∃ kind : Kind, name = kind.keyword

theorem Joined.deeds (h : Joined trail.config s draft) (hdeeds : Session.Deeds trail.config trail.traced s s') :
    Joined trail.config s' draft := ⟨h.fits.deeds hdeeds, h.kinds⟩

theorem refines_mergeChecks {config : Config} {member : Property} (hmember : member.Admitted config) :
    draft.Refines config (mergeChecks draft member) := by
  unfold mergeChecks
  unfold Property.Admitted at hmember
  generalize member.validators.toList = validators at hmember
  suffices ∀ result : Property, draft.Refines config result → draft.Refines config
      (validators.foldl (fun property validator =>
        if validator.check.isRequired || validator.check.isType
            || property.validators.toList.any (sameDemand · validator) then property
        else { property with validators := property.validators.add validator }) result) from
    this draft (.refl config draft)
  induction validators with
  | nil => exact fun _ h => h
  | cons validator rest ih =>
    intro result hresult
    rw [List.foldl_cons]
    refine ih (fun v hv => hmember v (List.mem_cons_of_mem _ hv)) _ ?_
    split
    · exact hresult
    · refine hresult.trans ⟨fun _ hlabel => hlabel, rfl, fun hadmitted v hv => ?_, rfl⟩
      rcases Validators.mem_toList_add.1 hv with rfl | hv
      · exact hmember v List.mem_cons_self
      · exact hadmitted v hv

/-- At most one of the members holds a type. -/
theorem Joined.addMember {config : Config} {member : Property} (h : Joined config s draft)
    (hmember : Joined config s member) (hone : member.nested ≠ none → draft.nested = none) :
    Joined config s (addMember draft member) := by
  -- What the members' labels name, one behind the other.
  have hjoin : ∀ result : Property, result.label = some { names := draft.names ++ member.names } →
      result.Admitted config → result.isLifted = false →
      (result.nested = if member.nested.isSome then member.nested else draft.nested) → Joined config s result := by
    intro result hlabel hadmitted hown hnested
    have hnames : result.names = draft.names ++ member.names := by
      unfold Property.names
      rw [hlabel]
      rfl
    cases hheld : member.nested with
    | some type =>
      have hnone := hone (hheld ▸ Option.some_ne_none type)
      rw [hheld] at hnested
      obtain ⟨hnamed, hkinds⟩ := hmember.fits.shows type hheld
      refine ⟨⟨hadmitted, hown, fun other hother => ?_, fun other hother => ?_⟩,
        fun hnot => nomatch hnested.symm.trans hnot⟩
      · cases hnested.symm.trans hother
        exact hmember.fits.lasts type hheld
      · cases hnested.symm.trans hother
        refine ⟨hnames ▸ List.mem_append_right _ hnamed, fun name hname => ?_⟩
        rcases List.mem_append.1 (hnames ▸ hname) with hname | hname
        · exact Or.inr (h.kinds hnone name hname)
        · exact hkinds name hname
    | none =>
      have hothers := hmember.kinds hheld
      rw [hheld] at hnested
      have hnested : result.nested = draft.nested := hnested
      refine ⟨⟨hadmitted, hown, fun type htype => ?_, fun type htype => ?_⟩, fun hnot name hname => ?_⟩
      · exact h.fits.lasts type (hnested ▸ htype)
      · obtain ⟨hnamed, hkinds⟩ := h.fits.shows type (hnested ▸ htype)
        refine ⟨hnames ▸ List.mem_append_left _ hnamed, fun name hname => ?_⟩
        rcases List.mem_append.1 (hnames ▸ hname) with hname | hname
        · exact hkinds name hname
        · exact Or.inr (hothers name hname)
      · rcases List.mem_append.1 (hnames ▸ hname) with hname | hname
        · exact h.kinds (hnested ▸ hnot) name hname
        · exact hothers name hname
  unfold Building.addMember
  have hmerged : ∀ joined : Property, joined.label = some { names := draft.names ++ member.names } →
      joined.Admitted config → joined.isLifted = false →
      (joined.nested = if member.nested.isSome then member.nested else draft.nested) →
      Joined config s (mergeChecks joined member) := by
    intro joined hlabel hadmitted hown hnested
    have hrefines : joined.Refines config (mergeChecks joined member) := refines_mergeChecks hmember.fits.admitted
    exact hjoin _ (hrefines.label _ hlabel) (hrefines.admitted hadmitted) (hrefines.lifted.trans hown)
      (hrefines.nested.trans hnested)
  have hboth : (draft.decorators ++ member.decorators).any Decorator.isTransferred = false := by
    rw [List.any_append, Bool.or_eq_false_iff]
    exact ⟨h.fits.own, hmember.fits.own⟩
  simp only
  split
  · rename_i hsome
    exact hmerged _ rfl h.fits.admitted hboth (if_pos hsome).symm
  · rename_i hnone
    exact hmerged _ rfl h.fits.admitted h.fits.own (if_neg hnone).symm

/-- A member of a union holds a type only if it is the object among the kinds. -/
theorem runs_member (hb : trail.Accepts build) (hd : site.scope.document = trail.document)
    (hr : references node ⊆ trail.spelled) {kind : Kind} (hs : trail.Ready s)
    (h : (member build site node kind).Runs trail.config s property s') :
    trail.After s s' ∧ Joined trail.config s' property ∧ (property.nested ≠ none → kind = .object) := by
  unfold member at h
  split at h
  · rename_i hobject
    simp only at h
    obtain ⟨type, m, hreserve, hmaterialize⟩ := Build.runs_bind.1 h
    obtain ⟨hreserved, className, rfl⟩ := runs_reserveFor hreserve
    obtain ⟨hfinished, _, hfits, hnested, _⟩ := runs_materialize hb (by exact hd)
      (List.Subset.trans (references_withoutCompositions node) hr) (hs.reserved _ _ _)
      ((hreserved.unfinished type).2 (Or.inr rfl)) hmaterialize
    exact ⟨hfinished.reserved hreserved, ⟨hfits, fun hnot => nomatch hnested.symm.trans hnot⟩, fun _ => hobject⟩
  · obtain ⟨hafter, hflat, hlabel⟩ := does_ofKind hb hd hr kind hs h
    refine ⟨hafter, ⟨Session.fits_of_flat hflat, fun _ name hname => ⟨kind, ?_⟩⟩, fun hnot => absurd hflat.nested hnot⟩
    unfold Property.names at hname
    rw [hlabel] at hname
    exact List.mem_singleton.1 hname

/-- Every kind is named once, so at most one member is an object. -/
theorem runs_members (hb : trail.Accepts build) (hd : site.scope.document = trail.document)
    (hr : references node ⊆ trail.spelled) : ∀ {kinds : List Kind} {draft : Property} {s : Session}, kinds.Nodup →
    trail.Ready s → Joined trail.config s draft → (.object ∈ kinds → draft.nested = none) →
    (kinds.foldlM (fun property kind => return addMember property (← member build site node kind)) draft).Runs
      trail.config s property s' → trail.After s s' ∧ Joined trail.config s' property
  | [], draft, s, _, _, hdraft, _, h => by
    rw [List.foldlM_nil] at h
    obtain ⟨rfl, rfl⟩ := Build.runs_pure.1 h
    exact ⟨.refl trail s', hdraft⟩
  | kind :: kinds, draft, s, hnodup, hs, hdraft, hnone, h => by
    rw [List.foldlM_cons] at h
    obtain ⟨hnot, hnodup⟩ := List.nodup_cons.1 hnodup
    obtain ⟨joined, m, hfirst, hrest⟩ := Build.runs_bind.1 h
    obtain ⟨found, m', hmember, hreturn⟩ := Build.runs_bind.1 hfirst
    obtain ⟨rfl, rfl⟩ := Build.runs_pure.1 hreturn
    obtain ⟨hafter, hfound, hkind⟩ := runs_member hb hd hr hs hmember
    have hjoined : Joined trail.config m (addMember draft found) :=
      (hdraft.deeds hafter.deeds).addMember hfound fun hheld => hnone (hkind hheld ▸ List.mem_cons_self)
    have hlater : .object ∈ kinds → (addMember draft found).nested = none := by
      intro hmem
      have hfree : found.nested = none := by
        by_contra hheld
        exact hnot (hkind hheld ▸ hmem)
      have hnested : (addMember draft found).nested = draft.nested := by
        unfold Building.addMember
        simp only [hfree, Option.isSome_none, Bool.false_eq_true, if_false]
        exact (refines_mergeChecks hfound.fits.admitted).nested
      exact hnested.trans (hnone (List.mem_cons_of_mem _ hmem))
    obtain ⟨hafter', hresult⟩ := runs_members hb hd hr hnodup (hs.after hafter) hjoined hlater hrest
    exact ⟨hafter.trans hafter', hresult⟩

theorem tells_unionKinds {config : Config} {name : String} {types : List Json} :
    Build.Tells config (unionKinds name types) List.Nodup := by
  unfold unionKinds
  refine (Build.tells_foldlM (r := List.Nodup) (fun kinds type hkinds => ?_) List.nodup_nil).bind fun kinds hkinds => ?_
  · split
    · split
      · rename_i kind _
        refine Build.tells_pure ?_
        split
        · exact hkinds
        · rename_i hnew
          rw [List.nodup_append]
          refine ⟨hkinds, by simp, fun a ha b hb => ?_⟩
          rintro rfl
          rw [List.mem_singleton.1 hb] at ha
          exact hnew (List.contains_iff_mem.2 ha)
      · exact Build.tells_refuse
    · exact Build.tells_malformed
  · split
    · exact Build.tells_malformed
    · exact Build.tells_pure hkinds

theorem makes_union (hb : trail.Accepts build) (hd : site.scope.document = trail.document)
    (hr : references node ⊆ trail.spelled) {types : List Json} : trail.Makes (union build site node types) := by
  intro s id s' hs hrun
  unfold union at hrun
  obtain ⟨kinds, m, hkinds, hrest⟩ := Build.runs_bind.1 hrun
  obtain ⟨rfl, hnodup⟩ := tells_unionKinds hkinds
  obtain ⟨fresh, m, hfresh, hrest'⟩ := Build.runs_bind.1 hrest
  obtain ⟨rfl, hnested, hlabel, hempty, hown⟩ := Build.tells_newProperty hfresh
  obtain ⟨joined, m', hmembers, hlabelled⟩ := Build.runs_bind.1 hrest'
  have hstart : Joined trail.config m fresh := by
    refine ⟨Session.fits_of_flat ⟨hnested, .of_empty hempty, hown⟩, fun _ name hname => ?_⟩
    unfold Property.names at hname
    rw [hlabel] at hname
    cases hname
  obtain ⟨hafter, hjoined⟩ := runs_members hb hd hr (hnodup.sublist List.filter_sublist) hs hstart
    (fun _ => hnested) hmembers
  have hready := hs.after hafter
  simp only at hlabelled
  rw [Build.runs_bind_of_iff fun _ _ => Build.runs_allowsNull] at hlabelled
  obtain ⟨valued, m'', hvalued, hcomposed⟩ := Build.runs_bind.1 hlabelled
  obtain ⟨result, t, hresult, hadd⟩ := Build.runs_bind.1 hcomposed
  obtain ⟨rfl, hrefines⟩ := tells_applyValueKeywords hvalued
  obtain ⟨hafter', hrefines'⟩ := does_applyCompositions hb hd hr hready hresult
  obtain ⟨rfl, rfl⟩ := Build.runs_addProperty.1 hadd
  -- The label of the union names what its members' labels name.
  have htyped : ∀ (label : TypeLabel) (check : Check), trail.config.Admits check →
      label.names = TypeLabel.distinct ((joined.label.map (·.names)).getD [Kind.null.keyword]) →
      m''.Fits trail.config ((if site.required then { joined with label := some label }.addCheck .required
        else { joined with label := some label }).addCheck check) := by
    intro label check hcheck hlabel
    have hbase : m''.Fits trail.config { joined with label := some label } := by
      refine ⟨hjoined.fits.admitted, hjoined.fits.own, hjoined.fits.lasts, fun type htype => ?_⟩
      obtain ⟨hnamed, hothers⟩ := hjoined.fits.shows type htype
      have hnames : ∀ name, name ∈ ({ joined with label := some label } : Property).names ↔ name ∈ joined.names := by
        intro name
        change name ∈ label.names ↔ _
        rw [hlabel, TypeLabel.mem_distinct]
        unfold Property.names at hnamed ⊢
        cases hfound : joined.label with
        | none =>
          rw [hfound] at hnamed
          cases hnamed
        | some found => rfl
      exact ⟨(hnames _).2 hnamed, fun name hname => hothers name ((hnames name).1 hname)⟩
    refine Session.Fits.refines ?_ (refines_addCheck hcheck)
    split
    · exact hbase.refines (refines_addCheck trivial)
    · exact hbase
  have hfits : t.Fits trail.config result := by
    refine (Session.Fits.refines ?_ (hrefines.trans hrefines')).deeds hafter'.deeds
    exact htyped _ _ trivial rfl
  exact ⟨hafter.trans (hafter'.trans (after_addProperty hfits)), fun _ => Session.own_addProperty t hfits.own⟩

end Trail
end Building
end SchemaTypes
