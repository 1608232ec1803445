import SchemaTypes.Proofs.Building.Repetition
/-!
# Drafts that repeat each other

A draft of the second run is that of the first with later ids (`Pairing.Drafts`).  Keywords take such drafts to such
drafts: they read the same node, look at nothing of a draft that ids change, and add checks that apply no properties.
-/
namespace SchemaTypes
namespace Building
namespace Pairing

open Build

variable {p : Pairing} {known : List TypeId} {a b : Property} {check : Check} {node : Json} {required : Bool}

/-- Whatever is not a check or the type of the property may change. -/
theorem Drafts.revise (h : p.Drafts known a b) {a' : Property} (hvalidators : a'.validators = a.validators)
    (hnested : a'.nested = a.nested) : p.Drafts known a' (a'.shifted p.offset) := by
  refine ⟨rfl, fun child hchild => h.children child (hvalidators ▸ hchild), fun type htype => h.types type ?_⟩
  rw [Property.types, hvalidators, hnested] at htype
  exact htype

theorem Drafts.relabel (h : p.Drafts known a b) (label : Option TypeLabel) :
    p.Drafts known { a with label } { b with label } := by
  obtain rfl := h.eq
  exact h.revise rfl rfl

theorem Drafts.strictly (h : p.Drafts known a b) :
    p.Drafts known { a with strict := true } { b with strict := true } := by
  obtain rfl := h.eq
  exact h.revise rfl rfl

theorem Drafts.add (h : p.Drafts known a b) {validator : Validator}
    (hchildren : ∀ child ∈ validator.check.children, p.floor ≤ child.index)
    (htypes : ∀ type ∈ validator.check.types, type ∈ known) :
    p.Drafts known { a with validators := a.validators.add validator }
      { b with validators := b.validators.add { validator with check := validator.check.shifted p.offset } } := by
  refine ⟨?_, fun child hchild => ?_, fun type htype => ?_⟩
  · rw [h.eq, Property.shifted, Property.shifted, Validators.mapChecks_add]
  · exact ((Validators.mem_children_add _).1 hchild).elim (hchildren child) (h.children child)
  · rcases List.mem_append.1 htype with htype | htype
    · exact h.types type (List.mem_append_left _ htype)
    · exact ((Validators.mem_types_add _).1 htype).elim (htypes type) fun hmem =>
        h.types type (List.mem_append_right _ hmem)

theorem Drafts.addCheck (h : p.Drafts known a b) (hchildren : ∀ child ∈ check.children, p.floor ≤ child.index)
    (htypes : ∀ type ∈ check.types, type ∈ known) :
    p.Drafts known (a.addCheck check) (b.addCheck (check.shifted p.offset)) := by
  have hvalidator : (check.shifted p.offset).toValidator = ⟨check.shifted p.offset, check.defaultPriority⟩ :=
    congrArg _ (check.defaultPriority_shifted p.offset)
  unfold Property.addCheck Validators.addCheck
  rw [hvalidator]
  exact h.add hchildren htypes

/-- A check that leads nowhere is added to both as it is. -/
theorem Drafts.addLeaf (h : p.Drafts known a b) (hchildren : check.children = []) (htypes : check.types = []) :
    p.Drafts known (a.addCheck check) (b.addCheck check) := by
  have hadded : p.Drafts known (a.addCheck check) _ :=
    h.addCheck (fun _ hmem => absurd hmem (hchildren ▸ List.not_mem_nil))
      fun _ hmem => absurd hmem (htypes ▸ List.not_mem_nil)
  rw [Check.shifted_of_children _ _ hchildren] at hadded
  exact hadded

theorem Drafts.addDecorator (h : p.Drafts known a b) (decorator : Decorator) :
    p.Drafts known (a.addDecorator decorator) (b.addDecorator decorator) := by
  have hsame : (a.addDecorator decorator).validators = a.validators ∧ (a.addDecorator decorator).nested = a.nested := by
    unfold Property.addDecorator
    split <;> exact ⟨rfl, rfl⟩
  rw [h.eq, ← Property.shifted_addDecorator]
  exact h.revise hsame.1 hsame.2

theorem Drafts.stampRequired (h : p.Drafts known a b) (required allowed : Bool) :
    p.Drafts known (a.stampRequired required allowed) (b.stampRequired required allowed) := by
  refine ⟨?_, fun child hchild => ?_, fun type htype => ?_⟩
  · rw [h.eq, Property.shifted_stampRequired]
  · exact h.children child (a.children_stampRequired_subset required allowed hchild)
  · exact h.types type (a.types_stampRequired_subset required allowed htype)

theorem Drafts.of_empty (hvalidators : a.validators = {}) (hnested : a.nested = none) : p.Drafts known a a := by
  refine ⟨(Property.shifted_of_empty _ _ hvalidators).symm, fun child hchild => ?_, fun type htype => ?_⟩
  · rw [hvalidators] at hchild
    exact absurd hchild List.not_mem_nil
  · rw [Property.types, hvalidators, hnested] at htype
    exact absurd htype List.not_mem_nil

theorem Drafts.present (h : p.Drafts known a b) (required : Bool) :
    p.Drafts known (if required then a.addCheck .required else a) (if required then b.addCheck .required else b) := by
  split
  · exact h.addLeaf rfl rfl
  · exact h

theorem twins_newProperty {name : String} :
    p.Twins known (newProperty name required) (newProperty name required) fun _ a b =>
      p.Drafts known a b ∧ a.name = name := by
  unfold newProperty
  split
  · exact twins_pure ⟨.of_empty rfl rfl, rfl⟩
  · exact twins_refuse

theorem twins_presentProperty {site site' : Site} (hname : site'.name = site.name)
    (hrequired : site'.required = site.required) :
    p.Twins known (presentProperty site) (presentProperty site') fun _ => p.Drafts known := by
  unfold presentProperty
  rw [hname, hrequired]
  exact twins_newProperty.bind fun a b h => twins_pure (h.1.present site.required)

/-! ## Keywords every property has -/

theorem drafts_describe (h : p.Drafts known a b) : p.Drafts known (describe a node) (describe b node) := by
  obtain rfl := h.eq
  unfold describe
  split
  · exact h.revise rfl rfl
  · exact h

theorem drafts_constant (h : p.Drafts known a b) : p.Drafts known (constant a node) (constant b node) := by
  unfold constant
  split
  · exact h.addLeaf rfl rfl
  · exact h

theorem twins_enumerate (h : p.Drafts known a b) :
    p.Twins known (enumerate a node required) (enumerate b node required) fun _ => p.Drafts known := by
  obtain rfl := h.eq
  unfold enumerate
  rw [Property.shifted_name]
  refine Twins.read (twins_detached Keyword.detached_enumeration?) fun found => ?_
  cases found with
  | none => exact twins_pure h
  | some values =>
    refine Twins.read (twins_detached detached_allowsNull) fun allowed => ?_
    have hadded : p.Drafts known (a.addCheck (.enumeration values (allowed && !values.any Json.isNull))) _ :=
      h.addLeaf rfl rfl
    simp only
    split
    · exact Twins.read (twins_detached detached_read) fun config =>
        twins_pure (hadded.strictly.stampRequired required config.settings.implicitNull)
    · exact twins_pure hadded

theorem twins_applyFilter {entry : Json} (h : p.Drafts known a b) :
    p.Twins known (applyFilter a entry) (applyFilter b entry) fun _ => p.Drafts known := by
  obtain rfl := h.eq
  unfold applyFilter
  refine Twins.read (twins_detached (z := filterEntry a entry) detached_filterEntry) fun found => ?_
  refine Twins.read (twins_detached detached_read) fun config => ?_
  simp only [Property.shifted_declaredKinds?]
  split
  · exact twins_refuse
  · split
    · exact twins_pure (h.addLeaf rfl rfl)
    · exact twins_refuse

theorem twins_applyFilters (h : p.Drafts known a b) :
    p.Twins known (applyFilters a node) (applyFilters b node) fun _ => p.Drafts known := by
  unfold applyFilters
  split
  · exact twins_pure h
  · exact twins_foldlM h fun entry _ a b h => twins_applyFilter h
  · exact twins_applyFilter h

theorem fitsDefault_shifted (a : Property) (offset : Nat) (value : Json) :
    fitsDefault (a.shifted offset) value = fitsDefault a value := by
  unfold fitsDefault isNullable
  rw [Property.shifted_declaredKinds?, Property.shifted_label]

theorem twins_applyDefault (h : p.Drafts known a b) :
    p.Twins known (applyDefault a node) (applyDefault b node) fun _ => p.Drafts known := by
  obtain rfl := h.eq
  unfold applyDefault
  simp only [fitsDefault_shifted]
  split
  · exact twins_pure h
  · split
    · exact twins_pure (h.revise rfl rfl)
    · exact twins_refuse

theorem twins_applyValueKeywords (h : p.Drafts known a b) :
    p.Twins known (applyValueKeywords a node required) (applyValueKeywords b node required)
      fun _ => p.Drafts known := by
  unfold applyValueKeywords
  refine (twins_enumerate (drafts_describe h)).bind fun a b h => ?_
  exact (twins_applyFilters (drafts_constant h)).bind fun a b h => twins_applyDefault h

/-! ## Strings and numbers -/

theorem twins_refuseFormat :
    p.Twins known (refuseFormat a node) (refuseFormat b node) fun _ _ _ => True := by
  unfold refuseFormat
  split
  · exact twins_pure trivial
  · exact twins_refuse
  · exact twins_refuse

theorem twins_addPattern (h : p.Drafts known a b) :
    p.Twins known (addPattern a node) (addPattern b node) fun _ => p.Drafts known := by
  obtain rfl := h.eq
  unfold addPattern
  rw [Property.shifted_name]
  split
  · exact twins_pure h
  · exact Twins.read (twins_detached Keyword.detached_pattern) fun pattern => twins_pure (h.addLeaf rfl rfl)
  · exact twins_malformed

theorem twins_addCount (h : p.Drafts known a b) {keyword : String} {check : Nat → Check}
    (hchildren : ∀ n, (check n).children = []) (htypes : ∀ n, (check n).types = []) :
    p.Twins known (addCount a node keyword check) (addCount b node keyword check) fun _ => p.Drafts known := by
  obtain rfl := h.eq
  unfold addCount
  rw [Property.shifted_name]
  refine Twins.read (twins_detached Keyword.detached_count?) fun found => ?_
  split
  · exact twins_pure (h.addLeaf (hchildren _) (htypes _))
  · exact twins_pure h

theorem twins_addStringChecks (h : p.Drafts known a b) :
    p.Twins known (addStringChecks a node) (addStringChecks b node) fun _ => p.Drafts known := by
  unfold addStringChecks
  refine twins_refuseFormat.andThen fun _ _ => (twins_addPattern h).bind fun a b h => ?_
  refine (twins_addCount h (fun _ => rfl) fun _ => rfl).bind fun a b h => ?_
  exact twins_addCount h (fun _ => rfl) fun _ => rfl

theorem twins_addBound (h : p.Drafts known a b) {keyword exclusiveKeyword : String} {check : Number → Bool → Check}
    (hchildren : ∀ limit exclusive, (check limit exclusive).children = [])
    (htypes : ∀ limit exclusive, (check limit exclusive).types = []) :
    p.Twins known (addBound a node keyword exclusiveKeyword check) (addBound b node keyword exclusiveKeyword check)
      fun _ => p.Drafts known := by
  obtain rfl := h.eq
  unfold addBound
  rw [Property.shifted_name]
  refine Twins.read (twins_detached Keyword.detached_number?) fun limit? => ?_
  have hleaf : ∀ {a b : Property}, p.Drafts known a b → ∀ limit exclusive,
      p.Drafts known (a.addCheck (check limit exclusive)) (b.addCheck (check limit exclusive)) :=
    fun h limit exclusive => h.addLeaf (hchildren limit exclusive) (htypes limit exclusive)
  cases limit? with
  | none =>
    simp only
    split
    · exact twins_pure h
    · exact twins_pure h
    · exact twins_pure (hleaf h _ _)
    · exact twins_malformed
  | some limit =>
    simp only
    split
    · exact twins_pure (hleaf h _ _)
    · exact twins_pure (hleaf h _ _)
    · exact twins_pure (hleaf (hleaf h _ _) _ _)
    · exact twins_malformed

theorem twins_addNumberChecks (h : p.Drafts known a b) :
    p.Twins known (addNumberChecks a node) (addNumberChecks b node) fun _ => p.Drafts known := by
  unfold addNumberChecks
  refine (twins_addBound h (fun _ _ => rfl) fun _ _ => rfl).bind fun a b h => ?_
  refine (twins_addBound h (fun _ _ => rfl) fun _ _ => rfl).bind fun a b h => ?_
  obtain rfl := h.eq
  rw [Property.shifted_name]
  refine Twins.read (twins_detached Keyword.detached_number?) fun found => ?_
  split
  · exact twins_pure (h.addLeaf rfl rfl)
  · exact twins_pure h

/-! ## Inferred types -/

theorem drafts_inferEnumeration (h : p.Drafts known a b) (values : List Json) :
    p.Drafts known (inferEnumeration a values) (inferEnumeration b values) := by
  unfold inferEnumeration
  simp only
  split
  · exact h.relabel _
  · exact h.addDecorator _

theorem drafts_inferLabel (h : p.Drafts known a b) (labels : List (Option TypeLabel)) :
    p.Drafts known (inferLabel a labels) (inferLabel b labels) := by
  unfold inferLabel
  split
  · split
    · exact (h.addDecorator _).relabel _
    · exact h
  · exact h

/-! ## Unions -/

theorem Drafts.mono {known' : List TypeId} (h : p.Drafts known a b) (hsub : known ⊆ known') : p.Drafts known' a b :=
  ⟨h.eq, h.children, fun type htype => hsub (h.types type htype)⟩

theorem sameDemand_shifted (offset : Nat) (v w : Validator) :
    sameDemand { v with check := v.check.shifted offset } { w with check := w.check.shifted offset } =
      sameDemand v w := by
  have hchildren : (v.check.children.map (·.shifted offset) == w.check.children.map (·.shifted offset)) =
      (v.check.children == w.check.children) := by
    rw [Bool.eq_iff_iff, beq_iff_eq, beq_iff_eq]
    exact (List.map_injective_iff.2 (PropertyId.shifted_injective offset)).eq_iff
  unfold sameDemand
  rw [Check.fingerprint_shifted, Check.fingerprint_shifted, Check.children_shifted, Check.children_shifted, hchildren]

variable {member member' : Property}

theorem drafts_mergeChecks (h : p.Drafts known a b) (hmember : p.Drafts known member member') :
    p.Drafts known (mergeChecks a member) (mergeChecks b member') := by
  have hvalidators : member'.validators.toList =
      member.validators.toList.map fun v => { v with check := v.check.shifted p.offset } := by
    rw [hmember.eq]
    exact Validators.toList_mapChecks _ _
  have hchildren : ∀ v ∈ member.validators.toList, ∀ child ∈ v.check.children, p.floor ≤ child.index :=
    fun v hv child hchild => hmember.children child (List.mem_flatMap.2 ⟨v, hv, hchild⟩)
  have htypes : ∀ v ∈ member.validators.toList, ∀ type ∈ v.check.types, type ∈ known :=
    fun v hv type htype => hmember.types type (List.mem_append_right _ (List.mem_flatMap.2 ⟨v, hv, htype⟩))
  unfold mergeChecks
  rw [hvalidators, List.foldl_map]
  generalize member.validators.toList = validators at hchildren htypes
  induction validators generalizing a b with
  | nil => exact h
  | cons v rest ih =>
    rw [List.foldl_cons, List.foldl_cons]
    refine ih ?_ (fun w hw => hchildren w (List.mem_cons_of_mem _ hw)) fun w hw =>
      htypes w (List.mem_cons_of_mem _ hw)
    have hany : b.validators.toList.any (sameDemand · { v with check := v.check.shifted p.offset }) =
        a.validators.toList.any (sameDemand · v) := by
      rw [h.eq, Property.shifted, Validators.toList_mapChecks, List.any_map]
      exact congrArg a.validators.toList.any (funext fun w => sameDemand_shifted p.offset w v)
    simp only [Check.isRequired_shifted, Check.isType_shifted, hany]
    split
    · exact h
    · exact h.add (hchildren v List.mem_cons_self) (htypes v List.mem_cons_self)

theorem drafts_addMember (h : p.Drafts known a b) (hmember : p.Drafts known member member') :
    p.Drafts known (addMember a member) (addMember b member') := by
  obtain rfl := h.eq
  obtain rfl := hmember.eq
  unfold addMember
  refine drafts_mergeChecks ?_ hmember
  by_cases hnested : member.nested.isSome = true
  · have hnested' : (member.shifted p.offset).nested.isSome = true := hnested
    simp only
    rw [if_pos hnested, if_pos hnested']
    refine ⟨rfl, h.children, fun type htype => ?_⟩
    rcases List.mem_append.1 htype with htype | htype
    · exact hmember.types type (List.mem_append_left _ htype)
    · exact h.types type (List.mem_append_right _ htype)
  · have hnested' : ¬ (member.shifted p.offset).nested.isSome = true := hnested
    simp only
    rw [if_neg hnested, if_neg hnested']
    exact h.relabel _

end Pairing
end Building
end SchemaTypes
