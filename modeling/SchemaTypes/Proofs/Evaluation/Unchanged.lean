import SchemaTypes.Proofs.Evaluation.Compositions
import SchemaTypes.Proofs.Evaluation.Guarded
/-!
# What evaluation leaves as it is

Evaluation changes a value by filters, by defaults, and by what the branches of a composition on an object populate.
Parts that have been judged are put back, and that changes nothing if nothing has changed them.  So a property from
which no filter, no default and no populating branch is reached by way of what is put back leaves every value as it
is, valid or not (`Evaluation.property_leaves`).

What is judged and not put back may change as it likes, as do the branches of a composition or the items of a
`contains`.
-/
namespace SchemaTypes

theorem Members.insert_of_get? : ∀ {members : Members} {name : String} {value : Json},
    members.get? name = some value → members.insert name value = members
  | [], _, _, h => nomatch h
  | (known, old) :: rest, name, value, h => by
    unfold Members.get? at h
    rw [List.lookup_cons] at h
    by_cases hname : known = name
    · subst hname
      simp only [beq_self_eq_true] at h
      simp [Members.insert, Option.some.inj h]
    · simp only [beq_false_of_ne (Ne.symm hname)] at h
      simp [Members.insert, hname, Members.insert_of_get? h]

def Check.isFilter : Check → Bool
  | .filter .. => true
  | _ => false

namespace Graph

/-- The properties that judge the parts which a check puts back. -/
def returnedBy (graph : Graph) (check : Check) : List PropertyId :=
  if check.putsBack then check.parts ++ check.types.flatMap fun type => (graph.type type).properties else []

/-- The first property puts back what the second one leaves of a part. -/
def Returns (graph : Graph) (a b : PropertyId) : Prop :=
  ∃ v ∈ (graph.property a).validators.toList, b ∈ graph.returnedBy v.check

/-- The type itself puts nothing new into an object: it has no defaults, and no branch populates anything. -/
structure AddsNothing (graph : Graph) (type : TypeId) : Prop where
  default : ∀ id ∈ (graph.type type).properties, (graph.property id).default = none
  affected : ∀ v ∈ (graph.type type).validators.toList, ∀ combinator branches,
    v.check = .composition combinator branches true → ∀ branch ∈ branches, branch.affected = []

/-- The check itself changes nothing. -/
structure Spares (graph : Graph) (check : Check) : Prop where
  filter : check.isFilter = false
  types : ∀ type ∈ check.types, graph.AddsNothing type

/-- Nothing that changes a value is reached from the property by way of what is put back. -/
def Steady (graph : Graph) (id : PropertyId) : Prop :=
  ∀ other, Relation.ReflTransGen graph.Returns id other →
    ∀ v ∈ (graph.property other).validators.toList, graph.Spares v.check

theorem Steady.step {graph : Graph} {a b : PropertyId} (h : graph.Steady a) (hstep : graph.Returns a b) :
    graph.Steady b := fun other hother => h other (.head hstep hother)

end Graph

/-- What the judge leaves of a value by that property is the value itself. -/
def Judge.Leaves (judge : Judge) (id : PropertyId) : Prop :=
  ∀ value outcome, judge id value = some outcome → outcome.value = value

namespace Evaluation

variable {graph : Graph} {mode : Mode} {judge : Judge} {check : Check}

/-! ## Parts -/

theorem survey_values : ∀ {parts : List Part} {survey : Survey}, (∀ part ∈ parts, judge.Leaves part.property) →
    judge.survey mode parts = some survey → survey.values <+: parts.map (·.value)
  | [], _, _, h => by
    cases h
    exact List.nil_prefix
  | part :: rest, survey, hleaves, h => by
    rw [List.forall_mem_cons] at hleaves
    simp only [Judge.survey, Option.bind_eq_bind, Option.bind_eq_some_iff] at h
    obtain ⟨outcome, houtcome, h⟩ := h
    have hvalue := hleaves.1 _ _ houtcome
    rw [List.map_cons, ← hvalue]
    split at h
    · cases h
      simp
    · simp only [Option.bind_eq_some_iff, Option.pure_def, Option.some.injEq] at h
      obtain ⟨others, hothers, rfl⟩ := h
      have hrest := survey_values hleaves.2 hothers
      simpa using hrest

theorem getElem?_of_prefix {α : Type} {first whole : List α} {index : Nat} {a : α} (h : first <+: whole)
    (hindex : first[index]? = some a) : whole[index]? = some a := by
  obtain ⟨rest, rfl⟩ := h
  obtain ⟨hlt, -⟩ := List.getElem?_eq_some_iff.1 hindex
  rw [List.getElem?_append_left hlt, hindex]

/-- Items are overwritten by themselves. -/
theorem overwrite_eq : ∀ {items : List Json} {values : List (Option Json)},
    (∀ (index : Nat) value, values[index]? = some (some value) → items[index]? = some value) →
      overwrite items values = items
  | [], [], _ => rfl
  | [], _ :: _, _ => rfl
  | _ :: _, [], _ => rfl
  | item :: items, value :: values, h => by
    have hrest : overwrite items values = items := by
      refine overwrite_eq fun index found hfound => ?_
      simpa using h (index + 1) found (by simpa using hfound)
    cases value with
    | none => simp [overwrite, hrest]
    | some value =>
      have hfirst := h 0 value rfl
      simp only [List.getElem?_cons_zero, Option.some.injEq] at hfirst
      simp [overwrite, hrest, hfirst]

theorem transformItems_leaves {label : String} {item : PropertyId} {offset : Nat} {items : List Json}
    {verdict : Verdict} {result : Json} (hleaves : judge.Leaves item)
    (h : transformItems judge mode label item offset items = some (verdict, result)) : result = .array items := by
  simp only [transformItems, Option.bind_eq_bind, Option.bind_eq_some_iff, Option.pure_def, Option.some.injEq,
    Prod.mk.injEq] at h
  obtain ⟨survey, hsurvey, -, rfl⟩ := h
  have hvalues := survey_values (fun part hpart => ?_) hsurvey
  · have hback : overwrite (items.drop offset) survey.values = items.drop offset := by
      refine overwrite_eq fun index value hvalue => ?_
      have hfound := getElem?_of_prefix hvalues hvalue
      simp [List.getElem?_zipIdx] at hfound
      simpa using hfound
    rw [hback, List.take_append_drop]
  · obtain ⟨_, _, rfl⟩ := List.mem_map.1 hpart
    exact hleaves

theorem transformTuple_leaves {positions : List PropertyId} {items : List Json} {verdict : Verdict} {result : Json}
    (hleaves : ∀ id ∈ positions, judge.Leaves id)
    (h : transformTuple judge mode positions items = some (verdict, result)) : result = .array items := by
  simp only [transformTuple, Option.bind_eq_bind, Option.bind_eq_some_iff, Option.pure_def, Option.some.injEq,
    Prod.mk.injEq] at h
  obtain ⟨survey, hsurvey, -, rfl⟩ := h
  have hvalues := survey_values (fun part hpart => ?_) hsurvey
  · have hback : overwrite items survey.values = items := by
      refine overwrite_eq fun index value hvalue => ?_
      have hfound := getElem?_of_prefix hvalues hvalue
      simp [List.getElem?_zipIdx] at hfound
      exact hfound.2
    rw [hback]
  · obtain ⟨⟨id, index⟩, hmem, rfl⟩ := List.mem_map.1 hpart
    exact hleaves id (List.fst_mem_of_mem_zipIdx hmem)

/-! ## Objects -/

theorem takeOver_nil (model : Members) (output : Option Json) : takeOver model [] output = model := rfl

theorem reset_nil (model : Members) (populated : List String) : reset model [] populated = model := rfl

theorem foldl_eq_self {β : Type} {f : Members → β → Members} {steps : List β} {model : Members}
    (hf : ∀ step ∈ steps, f model step = model) : steps.foldl f model = model := by
  induction steps with
  | nil => rfl
  | cons first rest ih =>
    rw [List.forall_mem_cons] at hf
    rw [List.foldl_cons, hf.1, ih hf.2]

/-- Branches that affect nothing populate nothing. -/
theorem populate_eq_self {model : Members} {results : List (Branch × Outcome)}
    (h : ∀ result ∈ results, result.1.affected = []) : populate model results = model := by
  have hpassing : (results.filter (·.2.isValid)).foldl (fun model result =>
      takeOver model result.1.affected result.2.value) model = model := by
    refine foldl_eq_self fun result hresult => ?_
    rw [h result (List.mem_filter.1 hresult).1, takeOver_nil]
  unfold populate
  refine Eq.trans (foldl_eq_self fun result hresult => ?_) hpassing
  simp only [h result (List.mem_filter.1 hresult).1, reset_nil]

theorem evaluateProperties_leaves {input : Members} :
    ∀ {ids : List PropertyId} {model : Members} {populated : Populated},
    (∀ id ∈ ids, judge.Leaves id ∧ (graph.property id).default = none) → model = input →
    evaluateProperties graph mode judge input ids model = some populated → populated.model = input
  | [], _, _, _, hmodel, h => by
    cases h
    exact hmodel
  | id :: rest, model, populated, hids, hmodel, h => by
    rw [List.forall_mem_cons] at hids
    obtain ⟨⟨hleaves, hdefault⟩, hrest⟩ := hids
    simp only [evaluateProperties, Option.bind_eq_bind, Option.bind_eq_some_iff] at h
    obtain ⟨outcome, houtcome, h⟩ := h
    have hcontribution : contribution (graph.property id) outcome = input.get? (graph.property id).name := by
      simp [contribution, hdefault, hleaves _ _ houtcome]
    subst hmodel
    rw [hcontribution] at h
    split at h
    · cases h
      simp only
      split
      · exact Members.insert_of_get? ‹_›
      · rfl
    · simp only [Option.bind_eq_some_iff, Option.pure_def, Option.some.injEq] at h
      obtain ⟨others, hothers, rfl⟩ := h
      change others.model = model
      refine evaluateProperties_leaves hrest ?_ hothers
      split
      · exact Members.insert_of_get? ‹_›
      · rfl

theorem runTypeCheck_leaves {input model model' : Members} {verdict : Verdict}
    (haffected : ∀ combinator branches, check = .composition combinator branches true →
      ∀ branch ∈ branches, branch.affected = [])
    (h : runTypeCheck mode judge input model check = some (verdict, model')) : model' = model := by
  unfold runTypeCheck at h
  split at h
  · rename_i combinator branches
    simp only [Option.bind_eq_bind, Option.bind_eq_some_iff, Option.pure_def, Option.some.injEq,
      Prod.mk.injEq] at h
    obtain ⟨outcomes, _, -, rfl⟩ := h
    exact populate_eq_self fun result hresult => haffected _ _ rfl _ (List.of_mem_zip hresult).1
  · simp only [Option.bind_eq_bind, Option.bind_eq_some_iff, Option.pure_def, Option.some.injEq,
      Prod.mk.injEq] at h
    obtain ⟨_, _, -, rfl⟩ := h
    rfl

theorem evaluateTypeChecks_leaves {className : String} {input model : Members} :
    ∀ {validators : List Validator} {populated : Populated},
    (∀ v ∈ validators, ∀ combinator branches, v.check = .composition combinator branches true →
      ∀ branch ∈ branches, branch.affected = []) →
    evaluateTypeChecks mode judge className input validators model = some populated → populated.model = model
  | [], _, _, h => by
    cases h
    rfl
  | validator :: rest, populated, haffected, h => by
    rw [List.forall_mem_cons] at haffected
    simp only [evaluateTypeChecks, Option.bind_eq_bind, Option.bind_eq_some_iff] at h
    obtain ⟨⟨verdict, next⟩, hcheck, h⟩ := h
    obtain rfl := runTypeCheck_leaves haffected.1 hcheck
    cases verdict with
    | pass => exact evaluateTypeChecks_leaves haffected.2 h
    | settle => exact evaluateTypeChecks_leaves haffected.2 h
    | fail failure =>
      simp only at h
      split at h
      · cases h
        rfl
      · simp only [Option.bind_eq_some_iff, Option.pure_def, Option.some.injEq] at h
        obtain ⟨others, hothers, rfl⟩ := h
        have hlast := evaluateTypeChecks_leaves haffected.2 hothers
        exact hlast

/-- A type that adds nothing, and whose members are left as they are, leaves the object as it is. -/
theorem evaluateObject_leaves {type : TypeId} {input : Members} {populated : Populated}
    (hproperties : ∀ id ∈ (graph.type type).properties, judge.Leaves id) (hadds : graph.AddsNothing type)
    (h : evaluateObject graph mode judge type input = some populated) : populated.model = input := by
  simp only [evaluateObject, Option.bind_eq_bind, Option.bind_eq_some_iff] at h
  obtain ⟨first, hfirst, h⟩ := h
  have hmodel := evaluateProperties_leaves (fun id hid => ⟨hproperties id hid, hadds.default id hid⟩) rfl hfirst
  split at h
  · cases h
    exact hmodel
  · simp only [Option.bind_eq_some_iff, Option.pure_def, Option.some.injEq] at h
    obtain ⟨second, hsecond, rfl⟩ := h
    have hlast := evaluateTypeChecks_leaves hadds.affected hsecond
    exact hlast.trans hmodel

/-! ## Checks and properties -/

theorem transform_leaves {value result : Json} {verdict : Verdict} (hspares : graph.Spares check)
    (hleaves : ∀ id ∈ graph.returnedBy check, judge.Leaves id)
    (h : transform graph mode judge check value = some (verdict, result)) : result = value := by
  unfold transform at h
  split at h
  · exact nomatch hspares.filter
  · exact transformItems_leaves (hleaves _ List.mem_cons_self) h
  · exact transformItems_leaves (hleaves _ List.mem_cons_self) h
  · exact transformTuple_leaves (fun id hid => hleaves id (List.mem_append_left _ hid)) h
  · rename_i type members
    simp only [Option.bind_eq_bind, Option.bind_eq_some_iff, Option.pure_def, Option.some.injEq, Prod.mk.injEq] at h
    obtain ⟨populated, hpopulated, -, rfl⟩ := h
    rw [evaluateObject_leaves (fun id hid => hleaves id ?_) (hspares.types type List.mem_cons_self) hpopulated]
    exact List.mem_append_right _ (List.mem_flatMap.2 ⟨type, List.mem_cons_self, hid⟩)
  · simp only [Option.bind_eq_bind, Option.bind_eq_some_iff, Option.pure_def, Option.some.injEq, Prod.mk.injEq] at h
    obtain ⟨_, _, -, rfl⟩ := h
    rfl

theorem runCheck_leaves {value result : Option Json} {verdict : Verdict} (hspares : graph.Spares check)
    (hleaves : ∀ id ∈ graph.returnedBy check, judge.Leaves id)
    (h : runCheck graph mode judge check value = some (verdict, result)) : result = value := by
  cases value with
  | none =>
    cases h
    rfl
  | some value =>
    simp only [runCheck, Option.bind_eq_bind, Option.bind_eq_some_iff, Option.pure_def, Option.some.injEq,
      Prod.mk.injEq] at h
    obtain ⟨⟨_, found⟩, hfound, -, rfl⟩ := h
    rw [transform_leaves hspares hleaves hfound]

theorem runValidators_leaves {name : String} {value : Option Json} :
    ∀ {validators : List Validator} {outcome : Outcome},
    (∀ v ∈ validators, ∀ verdict left, runCheck graph mode judge v.check value = some (verdict, left) → left = value) →
    runValidators graph mode judge name validators value = some outcome → outcome.value = value
  | [], _, _, h => by
    cases h
    rfl
  | validator :: rest, outcome, hchecks, h => by
    rw [List.forall_mem_cons] at hchecks
    simp only [runValidators, Option.bind_eq_bind, Option.bind_eq_some_iff] at h
    obtain ⟨⟨verdict, next⟩, hcheck, h⟩ := h
    obtain rfl := hchecks.1 verdict next hcheck
    cases verdict with
    | pass => exact runValidators_leaves hchecks.2 h
    | settle =>
      cases h
      rfl
    | fail failure =>
      simp only at h
      split at h
      · cases h
        rfl
      · simp only [Option.bind_eq_some_iff, Option.pure_def, Option.some.injEq] at h
        obtain ⟨others, hothers, rfl⟩ := h
        have hlast := runValidators_leaves hchecks.2 hothers
        exact hlast

/-- A steady property's checks leave every value as it is, if what is put back is. -/
theorem runCheck_of_steady {id : PropertyId} {v : Validator} {value result : Option Json} {verdict : Verdict}
    (hsteady : graph.Steady id) (hv : v ∈ (graph.property id).validators.toList)
    (hleaves : ∀ other, graph.Returns id other → judge.Leaves other)
    (h : runCheck graph mode judge v.check value = some (verdict, result)) : result = value :=
  runCheck_leaves (hsteady id .refl v hv) (fun other hother => hleaves other ⟨v, hv, hother⟩) h

/-- **A steady property leaves every value as it is**, and the absence of one, in either mode.  By induction on the
bound. -/
theorem property_leaves (mode : Mode) : ∀ (bound : Nat) {id : PropertyId}, graph.Steady id →
    (property graph mode bound).Leaves id
  | 0, _, _ => fun _ _ h => nomatch h
  | bound + 1, id, hsteady => by
    intro value outcome h
    refine runValidators_leaves (fun v hv verdict left hcheck => ?_) h
    exact runCheck_of_steady hsteady hv (fun other hother => property_leaves mode bound (hsteady.step hother)) hcheck

theorem evaluateProperty_leaves {id : PropertyId} (hsteady : graph.Steady id) :
    Judge.Leaves (graph.evaluateProperty mode) id := by
  intro value outcome h
  obtain ⟨bound, hbound⟩ := evaluateProperty_eq_some_iff.1 h
  exact property_leaves mode bound hsteady value outcome hbound

end Evaluation
end SchemaTypes
