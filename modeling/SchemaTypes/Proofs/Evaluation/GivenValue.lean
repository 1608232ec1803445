import SchemaTypes.Proofs.Building.Duplicates
import SchemaTypes.Proofs.Evaluation.Unchanged
/-!
# Checks judge the given value

The checks of a property run one after the other, and one that puts back what it has judged may leave a larger value to
those behind it.  Many of these do not notice: they look at nothing but the kind of a value, at most at how many items
an array has (`Check.isShallow`).  So where no check changes the value for one behind it that looks further
(`Evaluation.Undisturbed`), all checks judge the value as it was given: it is accepted if each of them passes on it when
it runs alone, in whichever order they stand (`Graph.checks_judge_given`).  Where nothing that changes a value is
reached, that is always so (`Graph.undisturbed_of_steady`).

Otherwise defaults that one check has filled in decide what another one makes of the value
(`Session.not_forall_checks_judge_given`).
-/
namespace SchemaTypes

/-- The check looks at the kind of a value only, at a number or a string, or at how many items an array has. -/
def Check.isShallow : Check → Bool
  | .required | .type .. | .implicitNull _ | .minimum .. | .maximum .. | .multipleOf _ | .pattern _ | .minLength _
  | .maxLength _ | .minItems _ | .maxItems _ | .noAdditionalItems _ | .deferred _ => true
  | _ => false

/-- What shallow checks cannot tell apart: one value, two arrays of one length, two objects. -/
inductive Json.Outlines : Json → Json → Prop
  | refl (value : Json) : Outlines value value
  | array {items others : List Json} : items.length = others.length → Outlines (.array items) (.array others)
  | object (members others : Members) : Outlines (.object members) (.object others)

theorem Json.Outlines.trans {a b c : Json} (h : a.Outlines b) (h' : b.Outlines c) : a.Outlines c := by
  cases h with
  | refl => exact h'
  | array hlength =>
    cases h' with
    | refl => exact .array hlength
    | array hlength' => exact .array (hlength.trans hlength')
  | object members others =>
    cases h' with
    | refl => exact .object members others
    | object _ last => exact .object members last

namespace Evaluation

variable {graph : Graph} {mode : Mode} {judge : Judge} {check : Check} {value found : Json} {verdict : Verdict}

/-! ## One check -/

/-- What runs a check puts nothing in the place of an array or an object but the like of it. -/
theorem transform_outlines (hfilter : check.isFilter = false)
    (h : transform graph mode judge check value = some (verdict, found)) : found.Outlines value := by
  unfold transform at h
  split at h
  · cases hfilter
  · simp only [transformItems, Option.bind_eq_bind, Option.bind_eq_some_iff, Option.pure_def, Option.some.injEq,
      Prod.mk.injEq] at h
    obtain ⟨survey, -, -, rfl⟩ := h
    refine .array ?_
    simp only [List.length_append, length_overwrite, List.length_take, List.length_drop]
    omega
  · simp only [transformItems, Option.bind_eq_bind, Option.bind_eq_some_iff, Option.pure_def, Option.some.injEq,
      Prod.mk.injEq] at h
    obtain ⟨survey, -, -, rfl⟩ := h
    refine .array ?_
    simp only [List.length_append, length_overwrite, List.length_take, List.length_drop]
    omega
  · simp only [transformTuple, Option.bind_eq_bind, Option.bind_eq_some_iff, Option.pure_def, Option.some.injEq,
      Prod.mk.injEq] at h
    obtain ⟨survey, -, -, rfl⟩ := h
    exact .array (length_overwrite _ _)
  · simp only [Option.bind_eq_bind, Option.bind_eq_some_iff, Option.pure_def, Option.some.injEq, Prod.mk.injEq] at h
    obtain ⟨populated, -, -, rfl⟩ := h
    exact .object _ _
  · simp only [Option.bind_eq_bind, Option.bind_eq_some_iff, Option.pure_def, Option.some.injEq, Prod.mk.injEq] at h
    obtain ⟨_, _, -, rfl⟩ := h
    exact .refl _

theorem settlesNull_of_ne_null (check : Check) (h : value ≠ .null) : settlesNull check value = false := by
  unfold settlesNull
  split
  · exact absurd rfl h
  · exact absurd rfl h
  · exact absurd rfl h
  · rfl

theorem inspect_outlines {other : Json} (hshallow : check.isShallow = true) (h : other.Outlines value) :
    inspect judge mode check other = inspect judge mode check value := by
  have hnull : other = value ∨ other ≠ .null ∧ value ≠ .null := by
    cases h with
    | refl => exact .inl rfl
    | _ => exact .inr ⟨nofun, nofun⟩
  rcases hnull with rfl | ⟨hother, hvalue⟩
  · rfl
  · unfold inspect
    rw [settlesNull_of_ne_null check hother, settlesNull_of_ne_null check hvalue]
    cases check <;> first
      | exact absurd hshallow Bool.false_ne_true
      | (cases h <;> first | rfl | simp only [inspectArray, *])

/-- A shallow check judges whatever is there. -/
theorem inspect_shallow (judge : Judge) (mode : Mode) (value : Json) (hshallow : check.isShallow = true) :
    ∃ verdict, inspect judge mode check value = some verdict := by
  unfold inspect
  split
  · exact ⟨_, rfl⟩
  · cases check with
    | type kinds implicitNull =>
      simp only
      split <;> exact ⟨_, rfl⟩
    | noAdditionalItems expected =>
      cases value with
      | array items =>
        simp only [inspectArray]
        split <;> exact ⟨_, rfl⟩
      | _ => exact ⟨_, rfl⟩
    | _ => first | exact absurd hshallow Bool.false_ne_true | (cases value <;> exact ⟨_, rfl⟩)

theorem transform_shallow (graph : Graph) (hshallow : check.isShallow = true) :
    transform graph mode judge check value = do return (← inspect judge mode check value, value) := by
  cases check <;> first | exact absurd hshallow Bool.false_ne_true | (cases value <;> rfl)

/-! ## What settles a value -/

theorem ofBool_ne_settle (passed : Bool) : Verdict.ofBool passed ≠ .settle := by
  unfold Verdict.ofBool
  split <;> nofun

theorem ofDetails_ne_settle (details : List (Detail Violation)) : Verdict.ofDetails details ≠ .settle := by
  unfold Verdict.ofDetails
  split <;> nofun

theorem rejectNames_ne_settle (parameter : String) (names : List String) : rejectNames parameter names ≠ .settle := by
  unfold rejectNames
  split <;> nofun

theorem judgeConditional_ne_settle {condition : PropertyId} {consequent alternative : Option PropertyId}
    (h : judgeConditional judge condition consequent alternative value = some verdict) : verdict ≠ .settle := by
  simp only [judgeConditional, Option.bind_eq_bind, Option.bind_eq_some_iff] at h
  obtain ⟨premise, -, h⟩ := h
  split at h
  · cases h
    nofun
  · simp only [Option.bind_eq_some_iff] at h
    obtain ⟨outcome, -, h⟩ := h
    split at h
    · cases h
      nofun
    · cases h
      exact ofDetails_ne_settle _

theorem inspectNumber_ne_settle (n : Number) (check : Check) : inspectNumber n check ≠ .settle := by
  cases check <;> first | exact ofBool_ne_settle _ | nofun

theorem inspectString_ne_settle (text : String) (check : Check) : inspectString text check ≠ .settle := by
  cases check <;> first | exact ofBool_ne_settle _ | nofun

theorem inspectArray_ne_settle {items : List Json} (h : inspectArray judge items check = some verdict) :
    verdict ≠ .settle := by
  unfold inspectArray at h
  split at h
  · exact Option.some.inj h ▸ ofBool_ne_settle _
  · exact Option.some.inj h ▸ ofBool_ne_settle _
  · exact Option.some.inj h ▸ ofBool_ne_settle _
  · split at h <;> exact Option.some.inj h ▸ nofun
  · obtain ⟨valid, -, heq⟩ := Option.bind_eq_some_iff.1 h
    exact Option.some.inj heq ▸ ofBool_ne_settle _
  · exact Option.some.inj h ▸ nofun

theorem judgeMembers_ne_settle {label : String} {property : PropertyId} {members : Members}
    (h : judgeMembers judge mode label property members = some verdict) : verdict ≠ .settle := by
  obtain ⟨survey, -, heq⟩ := Option.bind_eq_some_iff.1 h
  exact Option.some.inj heq ▸ ofDetails_ne_settle _

theorem inspectObject_ne_settle {members : Members} (h : inspectObject judge mode members check = some verdict) :
    verdict ≠ .settle := by
  unfold inspectObject at h
  split at h
  · exact Option.some.inj h ▸ rejectNames_ne_settle _ _
  · exact judgeMembers_ne_settle h
  · exact judgeMembers_ne_settle h
  · exact judgeMembers_ne_settle h
  · exact Option.some.inj h ▸ ofBool_ne_settle _
  · exact Option.some.inj h ▸ ofBool_ne_settle _
  · split at h
    · exact Option.some.inj h ▸ rejectNames_ne_settle _ _
    · exact Option.some.inj h ▸ nofun
  · split at h
    · obtain ⟨outcome, -, h⟩ := Option.bind_eq_some_iff.1 h
      split at h
      · exact Option.some.inj h ▸ nofun
      · exact Option.some.inj h ▸ ofDetails_ne_settle _
    · exact Option.some.inj h ▸ nofun
  · exact Option.some.inj h ▸ nofun

/-- A value is settled as an implicit null only. -/
theorem inspect_ne_settle (hsettles : settlesNull check value = false)
    (h : inspect judge mode check value = some verdict) : verdict ≠ .settle := by
  unfold inspect at h
  rw [hsettles] at h
  simp only [Bool.false_eq_true, if_false] at h
  split at h
  · split at h <;> exact Option.some.inj h ▸ nofun
  · exact Option.some.inj h ▸ ofBool_ne_settle _
  · exact Option.some.inj h ▸ ofBool_ne_settle _
  · obtain ⟨outcomes, -, heq⟩ := Option.bind_eq_some_iff.1 h
    rw [← Option.some.inj heq]
    unfold compositionVerdict
    simp only
    split <;> nofun
  · exact judgeConditional_ne_settle h
  · exact Option.some.inj h ▸ ofBool_ne_settle _
  · split at h
    · exact Option.some.inj h ▸ inspectNumber_ne_settle _ _
    · exact Option.some.inj h ▸ inspectString_ne_settle _ _
    · exact inspectArray_ne_settle h
    · exact inspectObject_ne_settle h
    · exact Option.some.inj h ▸ nofun
    · exact Option.some.inj h ▸ nofun

theorem transform_ne_settle (hsettles : settlesNull check value = false)
    (h : transform graph mode judge check value = some (verdict, found)) : verdict ≠ .settle := by
  unfold transform at h
  split at h
  · simp only [transformByFilter, Option.some.injEq] at h
    split at h
    · split at h <;> cases h <;> nofun
    · cases h
      nofun
  · obtain ⟨survey, -, heq⟩ := Option.bind_eq_some_iff.1 h
    cases heq
    exact ofDetails_ne_settle _
  · obtain ⟨survey, -, heq⟩ := Option.bind_eq_some_iff.1 h
    cases heq
    exact ofDetails_ne_settle _
  · obtain ⟨survey, -, heq⟩ := Option.bind_eq_some_iff.1 h
    cases heq
    exact ofDetails_ne_settle _
  · obtain ⟨populated, -, heq⟩ := Option.bind_eq_some_iff.1 h
    cases heq
    exact ofDetails_ne_settle _
  · obtain ⟨found, hfound, heq⟩ := Option.bind_eq_some_iff.1 h
    cases heq
    exact inspect_ne_settle hsettles hfound

/-! ## All checks -/

/-- The outcome is there, and nothing has been found wrong. -/
def Accepted (result : Option Outcome) : Prop := ∃ outcome, result = some outcome ∧ outcome.isValid = true

/-- The check passes on the value when no other check has run before it. -/
def PassesAlone (graph : Graph) (mode : Mode) (judge : Judge) (value : Json) (check : Check) : Prop :=
  ∃ left, runCheck graph mode judge check (some value) = some (.pass, left)

/-- No check changes the value for one behind it that looks further than at its outlines. -/
def Undisturbed (graph : Graph) (mode : Mode) (judge : Judge) (value : Json) (validators : List Validator) : Prop :=
  validators.Pairwise fun earlier later => later.check.isShallow = false →
    ∀ verdict left, runCheck graph mode judge earlier.check (some value) = some (verdict, left) → left = some value

variable {name : String} {validator : Validator} {rest validators : List Validator}

theorem runCheck_some_iff {left : Option Json} :
    runCheck graph mode judge check (some value) = some (verdict, left) ↔
      ∃ found, transform graph mode judge check value = some (verdict, found) ∧ left = some found := by
  simp only [runCheck, Option.bind_eq_bind, Option.bind_eq_some_iff, Option.pure_def, Option.some.injEq,
    Prod.mk.injEq]
  constructor
  · rintro ⟨⟨verdict, found⟩, htransform, rfl, rfl⟩
    exact ⟨found, htransform, rfl⟩
  · rintro ⟨found, htransform, rfl⟩
    exact ⟨(verdict, found), htransform, rfl, rfl⟩

theorem passesAlone_iff :
    PassesAlone graph mode judge value check ↔ ∃ found, transform graph mode judge check value = some (.pass, found) := by
  simp only [PassesAlone, runCheck_some_iff]
  exact ⟨fun ⟨_, found, h, _⟩ => ⟨found, h⟩, fun ⟨found, h⟩ => ⟨_, found, h, rfl⟩⟩

/-- Where nothing settles the value, it is accepted if the first check passes and the others accept what that leaves. -/
theorem accepted_cons_iff (hsettles : settlesNull validator.check value = false) :
    Accepted (runValidators graph mode judge name (validator :: rest) (some value)) ↔
      ∃ found, transform graph mode judge validator.check value = some (.pass, found) ∧
        Accepted (runValidators graph mode judge name rest (some found)) := by
  constructor
  · rintro ⟨outcome, houtcome, hvalid⟩
    have hstart := houtcome
    simp only [runValidators, Option.bind_eq_bind, Option.bind_eq_some_iff] at hstart
    obtain ⟨⟨verdict, left⟩, hcheck, -⟩ := hstart
    obtain ⟨found, htransform, rfl⟩ := runCheck_some_iff.1 hcheck
    cases verdict with
    | pass =>
      rw [runValidators_of_pass hcheck] at houtcome
      exact ⟨found, htransform, outcome, houtcome, hvalid⟩
    | settle => exact absurd rfl (transform_ne_settle hsettles htransform)
    | fail failure =>
      obtain ⟨later, hlater⟩ := runValidators_of_fail hcheck houtcome
      rw [Outcome.isValid, hlater] at hvalid
      cases hvalid
  · rintro ⟨found, htransform, haccepted⟩
    rw [runValidators_of_pass (runCheck_some_iff.2 ⟨found, htransform, rfl⟩)]
    exact haccepted

theorem settlesNull_outlines {other : Json} (h : other.Outlines value) (hsettles : settlesNull check value = false) :
    settlesNull check other = false := by
  cases h with
  | refl => exact hsettles
  | _ => exact settlesNull_of_ne_null check nofun

theorem transform_pass_iff_of_shallow {current : Json} (hshallow : check.isShallow = true)
    (houtlines : current.Outlines value) :
    transform graph mode judge check current = some (.pass, found) ↔
      PassesAlone graph mode judge value check ∧ current = found := by
  obtain ⟨verdict, hverdict⟩ := inspect_shallow judge mode value hshallow
  rw [passesAlone_iff, transform_shallow graph hshallow, transform_shallow graph hshallow,
    inspect_outlines hshallow houtlines, hverdict]
  simp

/-- **Undisturbed checks judge the given value.**  What they run on has the outlines of that value, and it is that value
as long as a check is left that looks further. -/
theorem accepted_iff : ∀ {validators : List Validator} {current : Json}, current.Outlines value →
    (current = value ∨ ∀ v ∈ validators, v.check.isShallow = true) →
    (∀ v ∈ validators, v.check.isFilter = false) → (∀ v ∈ validators, settlesNull v.check value = false) →
    Undisturbed graph mode judge value validators →
    (Accepted (runValidators graph mode judge name validators (some current)) ↔
      ∀ v ∈ validators, PassesAlone graph mode judge value v.check)
  | [], current, _, _, _, _, _ => iff_of_true ⟨_, rfl, rfl⟩ fun _ h => nomatch h
  | validator :: rest, current, houtlines, hcurrent, hfilter, hsettles, hundisturbed => by
    rw [List.forall_mem_cons] at hfilter hsettles ⊢
    obtain ⟨hleaves, hundisturbed⟩ := List.pairwise_cons.1 hundisturbed
    rw [accepted_cons_iff (settlesNull_outlines houtlines hsettles.1)]
    have hrest : ∀ found : Json, found.Outlines value → (found = value ∨ ∀ v ∈ rest, v.check.isShallow = true) →
        (Accepted (runValidators graph mode judge name rest (some found)) ↔
          ∀ v ∈ rest, PassesAlone graph mode judge value v.check) :=
      fun found houtlines hfound => accepted_iff houtlines hfound hfilter.2 hsettles.2 hundisturbed
    by_cases hshallow : validator.check.isShallow = true
    · have hnext : current = value ∨ ∀ v ∈ rest, v.check.isShallow = true :=
        hcurrent.imp_right fun hall => (List.forall_mem_cons.1 hall).2
      simp only [transform_pass_iff_of_shallow hshallow houtlines, and_assoc, exists_and_left, exists_eq_left',
        hrest current houtlines hnext]
    · have hdeep : current = value := hcurrent.resolve_right fun hall => hshallow (hall _ List.mem_cons_self)
      subst hdeep
      have hnext : ∀ found, transform graph mode judge validator.check current = some (.pass, found) →
          (Accepted (runValidators graph mode judge name rest (some found)) ↔
            ∀ v ∈ rest, PassesAlone graph mode judge current v.check) := by
        intro found hfound
        refine hrest found (transform_outlines hfilter.1 hfound) ?_
        by_cases hall : ∀ v ∈ rest, v.check.isShallow = true
        · exact .inr hall
        · obtain ⟨later, hlater, hlooks⟩ := by simpa using hall
          exact .inl (Option.some.inj (hleaves later hlater hlooks _ _ (runCheck_some_iff.2 ⟨found, hfound, rfl⟩)))
      rw [passesAlone_iff, exists_and_right.symm]
      exact exists_congr fun found => and_congr_right fun hfound => hnext found hfound

end Evaluation

namespace Graph

open Evaluation

/-- Nothing disturbs the checks of a steady property. -/
theorem undisturbed_of_steady {graph : Graph} {id : PropertyId} (mode : Mode) (value : Json)
    (hsteady : graph.Steady id) :
    Undisturbed graph mode (graph.evaluateProperty mode) value (graph.property id).validators.toList := by
  refine List.Pairwise.imp_of_mem (R := fun _ _ => True) (fun hv _ _ _ verdict left h => ?_)
    (List.pairwise_of_forall fun _ _ => trivial)
  exact runCheck_of_steady hsteady hv (fun other hother => evaluateProperty_leaves (hsteady.step hother)) h

/-- **Checks judge the given value.**  If no check of the property is a filter or settles the value, and none changes
the value for one behind it that looks further than at its outlines, then the property accepts the value if and only if
each check passes on it when it runs alone.  So it would in any other order in which the checks do not disturb each
other. -/
theorem checks_judge_given (graph : Graph) (mode : Mode) (id : PropertyId) (value : Json)
    (hfilter : ∀ v ∈ (graph.property id).validators.toList, v.check.isFilter = false)
    (hsettles : ∀ v ∈ (graph.property id).validators.toList, settlesNull v.check value = false)
    (hundisturbed : Undisturbed graph mode (graph.evaluateProperty mode) value
      (graph.property id).validators.toList) :
    (Accepted (graph.evaluateProperty mode id (some value)) ↔ ∀ v ∈ (graph.property id).validators.toList,
      PassesAlone graph mode (graph.evaluateProperty mode) value v.check) ∧
    ∀ others, others.Perm (graph.property id).validators.toList →
      Undisturbed graph mode (graph.evaluateProperty mode) value others →
      (Accepted (runValidators graph mode (graph.evaluateProperty mode) (graph.property id).name others (some value)) ↔
        Accepted (graph.evaluateProperty mode id (some value))) := by
  have hgiven : Accepted (graph.evaluateProperty mode id (some value)) ↔ ∀ v ∈ (graph.property id).validators.toList,
      PassesAlone graph mode (graph.evaluateProperty mode) value v.check := by
    rw [evaluateProperty_eq]
    exact accepted_iff (.refl value) (.inl rfl) hfilter hsettles hundisturbed
  refine ⟨hgiven, fun others hperm hothers => ?_⟩
  rw [hgiven, accepted_iff (.refl value) (.inl rfl) (fun v hv => hfilter v (hperm.mem_iff.1 hv))
    (fun v hv => hsettles v (hperm.mem_iff.1 hv)) hothers]
  simp only [hperm.mem_iff]

end Graph

namespace Session

open Evaluation

/-- An object with a default for its only member, which must not have that member under the same value. -/
def prefilled : Json :=
  let member := fun name (node : Json) => Json.object [(name, node)]
  .object [("type", .string "object"), ("properties", member "x" (.object [
    ("type", .array [.string "object", .string "string"]),
    ("properties", member "a" (member "default" (.string "s"))),
    ("not", .object [("properties", member "a" (member "const" (.string "s"))), ("required", .array [.string "a"])])]))]

def prefilledRun : Except Halt TypeId × Session := process {} oneName ⟨"t", "", "T"⟩ prefilled

def prefilledChecks (id : PropertyId) : List Validator := (prefilledRun.2.graph.property id).validators.toList

/-- Whether the value is an object with just this member, a text, or none. -/
def holds (text : Option String) : Option Json → Bool
  | some (.object []) => text.isNone
  | some (.object [("a", .string found)]) => text = some found
  | _ => false

def holding : Option String → Json
  | none => .object []
  | some text => .object [("a", .string text)]

theorem eq_of_holds {text : Option String} {value : Option Json} (h : holds text value = true) :
    value = some (holding text) := by
  unfold holds at h
  split at h
  · obtain rfl := Option.isNone_iff_eq_none.1 h
    rfl
  · rw [of_decide_eq_true h]
    rfl
  · cases h

/-- How the property's checks do on the value, each alone: they all pass and leave something of that kind. -/
def passAlone (id : PropertyId) (value : Json) (p : Option Json → Bool) : Bool :=
  (prefilledChecks id).all fun v =>
    (runCheck prefilledRun.2.graph .collectAll (property prefilledRun.2.graph .collectAll 9) v.check (some value)).any
      fun (verdict, left) => (match verdict with | .pass => true | _ => false) && p left

set_option maxRecDepth 100000 in
theorem prefilled_facts : prefilledRun.1.toOption = some ⟨0⟩ ∧
    (prefilledRun.2.graph.properties.all fun property =>
      property.validators.toList.all fun v => !v.check.isFilter) = true ∧
    ∃ id ∈ (prefilledRun.2.graph.type ⟨0⟩).properties,
      (∀ v ∈ prefilledChecks id, ∀ text ∈ [none, some "t"], settlesNull v.check (holding text) = false) ∧
      passAlone id (holding (some "t")) (holds (some "t")) = true ∧
      passAlone id (holding none) (fun _ => true) = true ∧
      (property prefilledRun.2.graph .collectAll 9 id (some (holding none))).any (!·.isValid) = true := by
  decide +kernel

theorem prefilled_filterFree (id : PropertyId) : ∀ v ∈ prefilledChecks id, v.check.isFilter = false := by
  have hall := prefilled_facts.2.1
  rw [Array.all_eq_true] at hall
  unfold prefilledChecks Graph.property
  rw [Array.getD]
  split
  · rename_i hlt
    intro v hv
    simpa using List.all_eq_true.1 (hall id.index hlt) v hv
  · exact fun _ hv => nomatch hv

theorem passesAlone_of_all {id : PropertyId} {value : Json} {p : Option Json → Bool} (h : passAlone id value p = true)
    {v : Validator} (hv : v ∈ prefilledChecks id) : ∃ left, runCheck prefilledRun.2.graph .collectAll
      (prefilledRun.2.graph.evaluateProperty .collectAll) v.check (some value) = some (.pass, left) ∧ p left = true := by
  obtain ⟨⟨verdict, left⟩, hrun, hpasses⟩ := (Option.any_eq_true _ _).1 (List.all_eq_true.1 h v hv)
  obtain ⟨hpass, hleft⟩ := Bool.and_eq_true_iff.1 hpasses
  refine ⟨left, ?_, hleft⟩
  cases verdict with
  | pass => exact (asked_iff fun _ _ hattained => hattained.runCheck _ v.check (some value)).2 ⟨9, hrun⟩
  | _ => cases hpass

/-- A text under the name that has a default: nothing is filled in, and both checks that look further pass. -/
theorem checks_judge_given_prefilled : ∃ id ∈ (prefilledRun.2.graph.type ⟨0⟩).properties,
    Accepted (prefilledRun.2.graph.evaluateProperty .collectAll id (some (holding (some "t")))) := by
  obtain ⟨_, _, id, hid, hsettles, hpass, _⟩ := prefilled_facts
  have halone : ∀ v ∈ prefilledChecks id, runCheck prefilledRun.2.graph .collectAll
      (prefilledRun.2.graph.evaluateProperty .collectAll) v.check (some (holding (some "t"))) =
        some (.pass, some (holding (some "t"))) := by
    intro v hv
    obtain ⟨left, hrun, hleft⟩ := passesAlone_of_all hpass hv
    rw [hrun, eq_of_holds hleft]
  refine ⟨id, hid, (prefilledRun.2.graph.checks_judge_given .collectAll id (holding (some "t"))
    (prefilled_filterFree id) (fun v hv => hsettles v hv _ (by decide)) ?_).1.2 fun v hv => ⟨_, halone v hv⟩⟩
  refine List.Pairwise.imp_of_mem (R := fun _ _ => True) (fun hv _ _ _ verdict left h => ?_)
    (List.pairwise_of_forall fun _ _ => trivial)
  rw [halone _ hv] at h
  cases h
  rfl

/-- **A default that one check fills in may be seen by another.**  The object without members has the right type and
lacks what it must not have, but by the time that this is judged the default has been filled in. -/
theorem not_forall_checks_judge_given : ¬ ∀ (graph : Graph) (id : PropertyId) (value : Json),
    (∀ other, ∀ v ∈ (graph.property other).validators.toList, v.check.isFilter = false) →
    (∀ v ∈ (graph.property id).validators.toList, settlesNull v.check value = false) →
    (Accepted (graph.evaluateProperty .collectAll id (some value)) ↔ ∀ v ∈ (graph.property id).validators.toList,
      PassesAlone graph .collectAll (graph.evaluateProperty .collectAll) value v.check) := by
  intro h
  obtain ⟨_, _, id, _, hsettles, _, hpass, hfails⟩ := prefilled_facts
  have hgiven := h prefilledRun.2.graph id (holding none) prefilled_filterFree fun v hv => hsettles v hv _ (by decide)
  obtain ⟨outcome, houtcome, hvalid⟩ := hgiven.2 fun v hv => by
    obtain ⟨left, hrun, -⟩ := passesAlone_of_all hpass hv
    exact ⟨left, hrun⟩
  obtain ⟨other, hother, hinvalid⟩ := (Option.any_eq_true _ _).1 hfails
  obtain rfl := Option.some.inj (houtcome.symm.trans (evaluateProperty_eq_some_iff.2 ⟨9, hother⟩))
  rw [hvalid] at hinvalid
  cases hinvalid

end Session
end SchemaTypes
