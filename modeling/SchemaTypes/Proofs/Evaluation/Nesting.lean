import SchemaTypes.Configuration.Filters
import SchemaTypes.Proofs.Evaluation.Guarded
/-!
# Evaluation nests values no deeper, defaults apart

How deep a value nests is counted along some steps only (`Json.nesting`), since the rest is of no account to what judges
parts by these steps.  What judging leaves of a value nests no deeper than the value did, as long as filters take away
only and the defaults that are filled in where the steps lead are bare (`Evaluation.property_keeps`).  An empty array
counts as having no parts here: nothing is ever put into one.
-/
namespace SchemaTypes

namespace Json

/-! ## Nesting -/

open Classical in
mutual
/-- How many containers enclose the innermost part that those steps lead to, not counting arrays without items. -/
noncomputable def nesting (steps : Step → Prop) : Json → Nat
  | .array items => if steps .item then nestingOfItems steps items else 0
  | .object members => nestingOfMembers steps members
  | _ => 0
noncomputable def nestingOfItems (steps : Step → Prop) : List Json → Nat
  | [] => 0
  | item :: rest => max (item.nesting steps + 1) (nestingOfItems steps rest)
noncomputable def nestingOfMembers (steps : Step → Prop) : List (String × Json) → Nat
  | [] => 1
  | (name, value) :: rest =>
    max (if steps (.member name) then value.nesting steps + 1 else 1) (nestingOfMembers steps rest)
end

variable {steps : Step → Prop} {step : Step} {n : Nat} {items : List Json} {members : Members} {value part : Json}
  {name : String}

theorem nesting_array_le :
    (Json.array items).nesting steps ≤ n ↔ steps .item → ∀ item ∈ items, item.nesting steps < n := by
  have hitems : nestingOfItems steps items ≤ n ↔ ∀ item ∈ items, item.nesting steps < n := by
    induction items with
    | nil => simp [nestingOfItems]
    | cons item rest ih => simp only [nestingOfItems, Nat.max_le, Nat.succ_le_iff, ih, List.forall_mem_cons]
  rw [nesting]
  split
  · rename_i htaken
    exact hitems.trans ⟨fun h _ => h, fun h => h htaken⟩
  · rename_i hnot
    exact iff_of_true (Nat.zero_le _) fun htaken => absurd htaken hnot

open Classical in
theorem nesting_object_le : (Json.object members).nesting steps ≤ n ↔
    0 < n ∧ ∀ member ∈ members, steps (.member member.1) → member.2.nesting steps < n := by
  rw [nesting]
  induction members with
  | nil => simp [nestingOfMembers, Nat.succ_le_iff]
  | cons member rest ih =>
    obtain ⟨name, value⟩ := member
    have hfirst : (if steps (.member name) then value.nesting steps + 1 else 1) ≤ n ↔
        0 < n ∧ (steps (.member name) → value.nesting steps < n) := by
      split
      · rename_i htaken
        exact ⟨fun h => ⟨Nat.zero_lt_of_lt h, fun _ => h⟩, fun h => h.2 htaken⟩
      · rename_i hnot
        exact ⟨fun h => ⟨h, fun htaken => absurd htaken hnot⟩, fun h => h.1⟩
    simp only [nestingOfMembers, Nat.max_le, hfirst, ih, List.forall_mem_cons]
    exact ⟨fun ⟨⟨hpos, hvalue⟩, _, hrest⟩ => ⟨hpos, hvalue, hrest⟩,
      fun ⟨hpos, hvalue, hrest⟩ => ⟨⟨hpos, hvalue⟩, hpos, hrest⟩⟩

theorem nesting_object_pos (members : Members) : 0 < (Json.object members).nesting steps :=
  (nesting_object_le.1 (Nat.le_refl _)).1

/-- Parts that the steps lead to nest less deep. -/
theorem nesting_part (h : PartAt step value part) (htaken : steps step) : part.nesting steps < value.nesting steps := by
  cases h with
  | item hitem => exact nesting_array_le.1 (Nat.le_refl _) htaken _ hitem
  | member hmember => exact (nesting_object_le.1 (Nat.le_refl _)).2 _ hmember htaken
  | name => exact nesting_object_pos _

theorem nesting_get? (h : Members.get? members name = some part) (htaken : steps (.member name)) :
    part.nesting steps < (Json.object members).nesting steps := nesting_part (partAt_get? h) htaken

theorem nesting_bare (h : Graph.IsBare steps value) : value.nesting steps = 0 := by
  cases value with
  | array items =>
    refine Nat.le_zero.1 (nesting_array_le.2 fun htaken item hitem => ?_)
    rw [show items = [] from h htaken] at hitem
    cases hitem
  | object => cases h
  | _ => rfl

theorem nesting_insert (hmembers : (Json.object members).nesting steps ≤ n)
    (hvalue : steps (.member name) → value.nesting steps < n) :
    (Json.object (Members.insert members name value)).nesting steps ≤ n := by
  rw [nesting_object_le] at hmembers ⊢
  obtain ⟨hpos, hmembers⟩ := hmembers
  refine ⟨hpos, ?_⟩
  clear hpos
  induction members with
  | nil => exact List.forall_mem_singleton.2 hvalue
  | cons member rest ih =>
    obtain ⟨known, old⟩ := member
    rw [List.forall_mem_cons] at hmembers
    simp only [Members.insert]
    split
    · rename_i hname
      exact List.forall_mem_cons.2 ⟨fun htaken => hvalue (hname ▸ htaken), hmembers.2⟩
    · exact List.forall_mem_cons.2 ⟨hmembers.1, ih hmembers.2⟩

/-- If there is a value, it nests less deep than that. -/
def Under (steps : Step → Prop) (n : Nat) (value : Option Json) : Prop := ∀ v, value = some v → v.nesting steps < n

theorem under_none (steps : Step → Prop) (n : Nat) : Under steps n none := fun _ h => nomatch h

theorem under_some (h : value.nesting steps < n) : Under steps n (some value) := fun _ heq => Option.some.inj heq ▸ h

end Json

open Json

/-! ## Filters -/

/-- If the check filters, what it leaves of a value nests no deeper, along whatever steps. -/
def Check.Trims : Check → Prop
  | .filter _ options _ apply =>
    ∀ value result, apply value options = .ok result → ∀ steps, result.nesting steps ≤ value.nesting steps
  | _ => True

/-- The standard filters take away only. -/
theorem Filters.nesting_standard {filter : Filter} (h : filter ∈ Filters.standard) {value options result : Json}
    (happly : filter.apply value options = .ok result) (steps : Json.Step → Prop) :
    result.nesting steps ≤ value.nesting steps := by
  have hfilter : filter = Filters.trim ∨ filter = Filters.notEmpty := by simpa [Filters.standard] using h
  rcases hfilter with rfl | rfl
  · cases value <;> cases happly <;> exact Nat.le_refl _
  · cases value with
    | array items =>
      cases happly
      exact nesting_array_le.2 fun htaken item hitem => nesting_part (.item (List.mem_filter.1 hitem).1) htaken
    | _ =>
      cases happly
      exact Nat.le_refl _

/-! ## Judging -/

/-- What the judge leaves of a value by that property nests no deeper. -/
def Judge.Keeps (judge : Judge) (steps : Json.Step → Prop) (id : PropertyId) : Prop :=
  ∀ value outcome n, judge id value = some outcome → Under steps n value → Under steps n outcome.value

namespace Evaluation

variable {graph : Graph} {mode : Mode} {judge : Judge} {steps : Json.Step → Prop} {n : Nat} {check : Check}

theorem survey_under : ∀ {parts : List Part} {survey : Survey}, (∀ part ∈ parts, judge.Keeps steps part.property) →
    (∀ part ∈ parts, Under steps n part.value) → judge.survey mode parts = some survey →
    ∀ v ∈ survey.values, Under steps n v
  | [], _, _, _, h => by
    cases h
    intro v hv
    cases hv
  | part :: rest, survey, hkeeps, hparts, h => by
    rw [List.forall_mem_cons] at hkeeps hparts
    simp only [Judge.survey, Option.bind_eq_bind, Option.bind_eq_some_iff] at h
    obtain ⟨outcome, houtcome, h⟩ := h
    have hvalue := hkeeps.1 _ _ n houtcome hparts.1
    split at h
    · cases h
      simpa using hvalue
    · simp only [Option.bind_eq_some_iff, Option.pure_def, Option.some.injEq] at h
      obtain ⟨others, hothers, rfl⟩ := h
      exact List.forall_mem_cons.2 ⟨hvalue, survey_under hkeeps.2 hparts.2 hothers⟩

theorem nesting_overwrite : ∀ {items : List Json} {values : List (Option Json)},
    (∀ item ∈ items, item.nesting steps < n) → (∀ v ∈ values, Under steps n v) →
    ∀ item ∈ overwrite items values, item.nesting steps < n
  | [], [], _, _ => fun _ hitem => nomatch hitem
  | [], _ :: _, _, _ => fun _ hitem => nomatch hitem
  | _ :: _, [], hitems, _ => hitems
  | item :: items, value :: values, hitems, hvalues => by
    rw [List.forall_mem_cons] at hitems hvalues
    refine List.forall_mem_cons.2 ⟨?_, nesting_overwrite hitems.2 hvalues.2⟩
    cases value with
    | none => exact hitems.1
    | some value => exact hvalues.1 value rfl

theorem nesting_transformItems {label : String} {item : PropertyId} {offset : Nat} {items : List Json}
    {verdict : Verdict} {result : Json} (hkeeps : steps .item → judge.Keeps steps item)
    (h : transformItems judge mode label item offset items = some (verdict, result))
    (hitems : (Json.array items).nesting steps ≤ n) : result.nesting steps ≤ n := by
  rw [nesting_array_le] at hitems
  simp only [transformItems, Option.bind_eq_bind, Option.bind_eq_some_iff, Option.pure_def, Option.some.injEq,
    Prod.mk.injEq] at h
  obtain ⟨survey, hsurvey, -, rfl⟩ := h
  refine nesting_array_le.2 fun htaken found hfound => ?_
  have hvalues : ∀ v ∈ survey.values, Under steps n v :=
    survey_under (fun part hpart => ?_) (fun part hpart => ?_) hsurvey
  · rcases List.mem_append.1 hfound with hfound | hfound
    · exact hitems htaken found (List.mem_of_mem_take hfound)
    · exact nesting_overwrite (fun item hitem => hitems htaken item (List.mem_of_mem_drop hitem)) hvalues found hfound
  · obtain ⟨_, _, rfl⟩ := List.mem_map.1 hpart
    exact hkeeps htaken
  · obtain ⟨⟨value, index⟩, hmem, rfl⟩ := List.mem_map.1 hpart
    exact under_some (hitems htaken value (List.mem_of_mem_drop (List.fst_mem_of_mem_zipIdx hmem)))

theorem nesting_transformTuple {positions : List PropertyId} {items : List Json} {verdict : Verdict} {result : Json}
    (hkeeps : steps .item → ∀ id ∈ positions, judge.Keeps steps id)
    (h : transformTuple judge mode positions items = some (verdict, result))
    (hitems : (Json.array items).nesting steps ≤ n) : result.nesting steps ≤ n := by
  rw [nesting_array_le] at hitems
  simp only [transformTuple, Option.bind_eq_bind, Option.bind_eq_some_iff, Option.pure_def, Option.some.injEq,
    Prod.mk.injEq] at h
  obtain ⟨survey, hsurvey, -, rfl⟩ := h
  refine nesting_array_le.2 fun htaken => ?_
  have hvalues : ∀ v ∈ survey.values, Under steps n v :=
    survey_under (fun part hpart => ?_) (fun part hpart => ?_) hsurvey
  · exact nesting_overwrite (hitems htaken) hvalues
  · obtain ⟨⟨id, index⟩, hmem, rfl⟩ := List.mem_map.1 hpart
    exact hkeeps htaken id (List.fst_mem_of_mem_zipIdx hmem)
  · obtain ⟨⟨id, index⟩, hmem, rfl⟩ := List.mem_map.1 hpart
    exact fun value hvalue => hitems htaken value (List.mem_of_getElem? hvalue)

/-! ## Objects -/

/-- A model that is changed step by step nests no deeper if no step makes it do so. -/
theorem nesting_foldl {β : Type} {f : Members → β → Members} {changes : List β} {model : Members}
    (hf : ∀ model, ∀ change ∈ changes, (Json.object model).nesting steps ≤ n →
      (Json.object (f model change)).nesting steps ≤ n)
    (hmodel : (Json.object model).nesting steps ≤ n) : (Json.object (changes.foldl f model)).nesting steps ≤ n := by
  induction changes generalizing model with
  | nil => exact hmodel
  | cons first rest ih =>
    have hfirst := hf model first List.mem_cons_self hmodel
    exact ih (fun model change hchange => hf model change (List.mem_cons_of_mem _ hchange)) hfirst

/-- What a branch leaves matters if the steps lead to some member it populates. -/
theorem nesting_takeOver {model : Members} {output : Option Json} {affected : List String}
    (houtput : ∀ name ∈ affected, steps (.member name) → Under steps (n + 1) output)
    (hmodel : (Json.object model).nesting steps ≤ n) :
    (Json.object (takeOver model affected output)).nesting steps ≤ n := by
  refine nesting_foldl (fun model name hname hmodel => ?_) hmodel
  split
  · rename_i value hvalue
    obtain ⟨object, rfl, hget⟩ := Option.bind_eq_some_iff.1 hvalue
    refine nesting_insert hmodel fun htaken => ?_
    refine Nat.lt_of_lt_of_le ?_ (Nat.le_of_lt_succ (houtput name hname htaken object rfl))
    cases object with
    | object members => exact nesting_get? hget htaken
    | _ => cases hget
  · exact hmodel

theorem nesting_reset {model : Members} (populated affected : List String)
    (hmodel : (Json.object model).nesting steps ≤ n) :
    (Json.object (reset model affected populated)).nesting steps ≤ n := by
  refine nesting_foldl (fun model name _ hmodel => ?_) hmodel
  split
  · exact nesting_insert hmodel fun _ => (nesting_object_le.1 hmodel).1
  · exact hmodel

theorem nesting_populate {model : Members} {results : List (Branch × Outcome)}
    (hmodel : (Json.object model).nesting steps ≤ n) (hresults : ∀ result ∈ results, ∀ name ∈ result.1.affected,
      steps (.member name) → Under steps (n + 1) result.2.value) :
    (Json.object (populate model results)).nesting steps ≤ n := by
  refine nesting_foldl (fun model result _ hmodel => nesting_reset _ _ hmodel) (nesting_foldl ?_ hmodel)
  exact fun model result hresult hmodel => nesting_takeOver (hresults result (List.mem_filter.1 hresult).1) hmodel

/-- Each branch leaves what its own property does. -/
theorem judgeBranches_under {value : Json} : ∀ {branches : List Branch} {outcomes : List Outcome},
    Under steps n (some value) → judgeBranches judge branches value = some outcomes →
    ∀ result ∈ branches.zip outcomes, judge.Keeps steps result.1.property → Under steps n result.2.value
  | [], _, _, _ => fun _ hresult => nomatch hresult
  | branch :: rest, _, hvalue, h => by
    simp only [judgeBranches, List.mapM_cons, Option.bind_eq_bind, Option.bind_eq_some_iff, Option.pure_def,
      Option.some.injEq] at h
    obtain ⟨outcome, houtcome, others, hothers, rfl⟩ := h
    rw [List.zip_cons_cons]
    exact List.forall_mem_cons.2 ⟨fun hkeeps => hkeeps _ _ n houtcome hvalue, judgeBranches_under hvalue hothers⟩

theorem nesting_evaluateProperties {input : Members} (hinput : (Json.object input).nesting steps ≤ n) :
    ∀ {ids : List PropertyId} {model : Members} {populated : Populated},
    (∀ id ∈ ids, steps (.member (graph.property id).name) → judge.Keeps steps id ∧
      ∀ value, (graph.property id).default = some value → Graph.IsBare steps value) →
    (Json.object model).nesting steps ≤ n → evaluateProperties graph mode judge input ids model = some populated →
    (Json.object populated.model).nesting steps ≤ n
  | [], _, _, _, hmodel, h => by
    cases h
    exact hmodel
  | id :: rest, model, populated, hids, hmodel, h => by
    rw [List.forall_mem_cons] at hids
    obtain ⟨hfirst, hrest⟩ := hids
    simp only [evaluateProperties, Option.bind_eq_bind, Option.bind_eq_some_iff] at h
    obtain ⟨outcome, houtcome, h⟩ := h
    have hcontribution : steps (.member (graph.property id).name) →
        Under steps n (contribution (graph.property id) outcome) := by
      intro htaken
      obtain ⟨hkeeps, hbare⟩ := hfirst htaken
      have hmember : Under steps n (input.get? (graph.property id).name) := fun value hvalue =>
        Nat.lt_of_lt_of_le (nesting_get? hvalue htaken) hinput
      have hvalue := hkeeps _ _ n houtcome hmember
      intro value hfound
      rcases (Option.orElse_eq_some _ _ _).1 hfound with hfound | ⟨-, hdefault⟩
      · exact hvalue value hfound
      · rw [nesting_bare (hbare value hdefault)]
        exact (nesting_object_le.1 hinput).1
    split at h
    · cases h
      simp only
      split
      · exact nesting_insert hmodel fun htaken => hcontribution htaken _ ‹_›
      · exact hmodel
    · simp only [Option.bind_eq_some_iff, Option.pure_def, Option.some.injEq] at h
      obtain ⟨others, hothers, rfl⟩ := h
      change (Json.object others.model).nesting steps ≤ n
      refine nesting_evaluateProperties hinput hrest ?_ hothers
      split
      · exact nesting_insert hmodel fun htaken => hcontribution htaken _ ‹_›
      · exact hmodel

theorem nesting_runTypeCheck {input model model' : Members} {verdict : Verdict}
    (hkeeps : ∀ combinator branches, check = .composition combinator branches true → ∀ branch ∈ branches,
      ∀ name ∈ branch.affected, steps (.member name) → judge.Keeps steps branch.property)
    (hinput : (Json.object input).nesting steps ≤ n) (hmodel : (Json.object model).nesting steps ≤ n)
    (h : runTypeCheck mode judge input model check = some (verdict, model')) :
    (Json.object model').nesting steps ≤ n := by
  unfold runTypeCheck at h
  split at h
  · rename_i combinator branches
    simp only [Option.bind_eq_bind, Option.bind_eq_some_iff, Option.pure_def, Option.some.injEq,
      Prod.mk.injEq] at h
    obtain ⟨outcomes, houtcomes, -, rfl⟩ := h
    have hunder := judgeBranches_under (n := n + 1) (under_some (Nat.lt_succ_of_le hinput)) houtcomes
    exact nesting_populate hmodel fun result hresult name hname htaken =>
      hunder result hresult (hkeeps _ _ rfl _ (List.of_mem_zip hresult).1 name hname htaken)
  · simp only [Option.bind_eq_bind, Option.bind_eq_some_iff, Option.pure_def, Option.some.injEq,
      Prod.mk.injEq] at h
    obtain ⟨_, _, -, rfl⟩ := h
    exact hmodel

theorem nesting_evaluateTypeChecks {className : String} {input : Members}
    (hinput : (Json.object input).nesting steps ≤ n) :
    ∀ {validators : List Validator} {model : Members} {populated : Populated},
    (∀ v ∈ validators, ∀ combinator branches, v.check = .composition combinator branches true → ∀ branch ∈ branches,
      ∀ name ∈ branch.affected, steps (.member name) → judge.Keeps steps branch.property) →
    (Json.object model).nesting steps ≤ n →
    evaluateTypeChecks mode judge className input validators model = some populated →
    (Json.object populated.model).nesting steps ≤ n
  | [], _, _, _, hmodel, h => by
    cases h
    exact hmodel
  | validator :: rest, model, populated, hkeeps, hmodel, h => by
    rw [List.forall_mem_cons] at hkeeps
    simp only [evaluateTypeChecks, Option.bind_eq_bind, Option.bind_eq_some_iff] at h
    obtain ⟨⟨verdict, next⟩, hcheck, h⟩ := h
    have hnext := nesting_runTypeCheck hkeeps.1 hinput hmodel hcheck
    cases verdict with
    | pass => exact nesting_evaluateTypeChecks hinput hkeeps.2 hnext h
    | settle => exact nesting_evaluateTypeChecks hinput hkeeps.2 hnext h
    | fail failure =>
      simp only at h
      split at h
      · cases h
        exact hnext
      · simp only [Option.bind_eq_some_iff, Option.pure_def, Option.some.injEq] at h
        obtain ⟨others, hothers, rfl⟩ := h
        have hlast := nesting_evaluateTypeChecks hinput hkeeps.2 hnext hothers
        exact hlast

/-- An object that is made an instance nests no deeper, if nothing that is put back does. -/
theorem nesting_evaluateObject {type : TypeId} {input : Members} {populated : Populated}
    (hkeeps : ∀ id, graph.PutsBack steps (.instanceOf type) id → judge.Keeps steps id)
    (hbare : ∀ id, graph.Fills steps (.instanceOf type) id → ∀ value, (graph.property id).default = some value →
      Graph.IsBare steps value)
    (h : evaluateObject graph mode judge type input = some populated) :
    (Json.object populated.model).nesting steps ≤ (Json.object input).nesting steps := by
  simp only [evaluateObject, Option.bind_eq_bind, Option.bind_eq_some_iff] at h
  obtain ⟨first, hfirst, h⟩ := h
  have hmodel := nesting_evaluateProperties (Nat.le_refl _) (fun id hid htaken =>
    ⟨hkeeps id (.declared hid htaken), hbare id (.declared hid htaken)⟩) (Nat.le_refl _) hfirst
  split at h
  · cases h
    exact hmodel
  · simp only [Option.bind_eq_some_iff, Option.pure_def, Option.some.injEq] at h
    obtain ⟨second, hsecond, rfl⟩ := h
    have hlast := nesting_evaluateTypeChecks (Nat.le_refl _) (fun v hv combinator branches hcheck branch hbranch name
      hname htaken => hkeeps _ (.populated hv hcheck hbranch hname htaken)) hmodel hsecond
    exact hlast

/-! ## Checks and properties -/

theorem nesting_transform {value result : Json} {verdict : Verdict} (htrims : check.Trims)
    (hkeeps : ∀ id, graph.PutsBack steps check id → judge.Keeps steps id)
    (hbare : ∀ id, graph.Fills steps check id → ∀ value, (graph.property id).default = some value →
      Graph.IsBare steps value)
    (h : transform graph mode judge check value = some (verdict, result)) :
    result.nesting steps ≤ value.nesting steps := by
  unfold transform at h
  split at h
  · rename_i options accepts apply
    simp only [Option.some.injEq, transformByFilter] at h
    split at h
    · split at h
      · rename_i found hfound
        cases h
        exact htrims value _ hfound steps
      · cases h
        exact Nat.le_refl _
    · cases h
      exact Nat.le_refl _
  · exact nesting_transformItems (fun htaken => hkeeps _ (.items htaken)) h (Nat.le_refl _)
  · exact nesting_transformItems (fun htaken => hkeeps _ (.additionalItems htaken)) h (Nat.le_refl _)
  · exact nesting_transformTuple (fun htaken id hid => hkeeps id (.tuple htaken hid)) h (Nat.le_refl _)
  · rename_i type members
    simp only [Option.bind_eq_bind, Option.bind_eq_some_iff, Option.pure_def, Option.some.injEq, Prod.mk.injEq] at h
    obtain ⟨populated, hpopulated, -, rfl⟩ := h
    exact nesting_evaluateObject hkeeps hbare hpopulated
  · simp only [Option.bind_eq_bind, Option.bind_eq_some_iff, Option.pure_def, Option.some.injEq, Prod.mk.injEq] at h
    obtain ⟨_, _, -, rfl⟩ := h
    exact Nat.le_refl _

theorem runCheck_under {value result : Option Json} {verdict : Verdict}
    (hcheck : ∀ v verdict w, transform graph mode judge check v = some (verdict, w) →
      w.nesting steps ≤ v.nesting steps)
    (h : runCheck graph mode judge check value = some (verdict, result)) (hvalue : Under steps n value) :
    Under steps n result := by
  cases value with
  | none =>
    cases h
    exact under_none steps n
  | some value =>
    simp only [runCheck, Option.bind_eq_bind, Option.bind_eq_some_iff, Option.pure_def, Option.some.injEq,
      Prod.mk.injEq] at h
    obtain ⟨⟨_, found⟩, hfound, -, rfl⟩ := h
    exact under_some (Nat.lt_of_le_of_lt (hcheck _ _ _ hfound) (hvalue value rfl))

theorem runValidators_under {name : String} : ∀ {validators : List Validator} {value : Option Json} {outcome : Outcome},
    (∀ validator ∈ validators, ∀ v verdict w,
      transform graph mode judge validator.check v = some (verdict, w) → w.nesting steps ≤ v.nesting steps) →
    runValidators graph mode judge name validators value = some outcome → Under steps n value →
    Under steps n outcome.value
  | [], _, _, _, h, hvalue => by
    cases h
    exact hvalue
  | validator :: rest, value, outcome, hchecks, h, hvalue => by
    rw [List.forall_mem_cons] at hchecks
    simp only [runValidators, Option.bind_eq_bind, Option.bind_eq_some_iff] at h
    obtain ⟨⟨verdict, next⟩, hcheck, h⟩ := h
    have hnext := runCheck_under hchecks.1 hcheck hvalue
    cases verdict with
    | pass => exact runValidators_under hchecks.2 h hnext
    | settle =>
      cases h
      exact hnext
    | fail failure =>
      simp only at h
      split at h
      · cases h
        exact hnext
      · simp only [Option.bind_eq_some_iff, Option.pure_def, Option.some.injEq] at h
        obtain ⟨others, hothers, rfl⟩ := h
        have hlast := runValidators_under hchecks.2 hothers hnext
        exact hlast

/-- **What a property leaves of a value nests no deeper**, if its checks fill in nothing but bare values where the steps
lead.  By induction on the bound. -/
theorem property_keeps (htrims : ∀ id, ∀ v ∈ (graph.property id).validators.toList, v.check.Trims) (mode : Mode) :
    ∀ (bound : Nat) {id : PropertyId}, (∀ v ∈ (graph.property id).validators.toList, ∀ member,
      graph.Fills steps v.check member → ∀ value, (graph.property member).default = some value →
        Graph.IsBare steps value) → (property graph mode bound).Keeps steps id
  | 0, _, _ => fun _ _ _ h => nomatch h
  | bound + 1, id, hbare => by
    intro value outcome n h hvalue
    refine runValidators_under (fun v hv _ _ _ htransform => nesting_transform (htrims id v hv)
      (fun next hnext => ?_) (hbare v hv) htransform) h hvalue
    exact property_keeps htrims mode bound fun w hw member hmember => hbare v hv member (.further hnext hw hmember)

end Evaluation
end SchemaTypes
