import Mathlib.Data.List.Forall2
import SchemaTypes.Evaluation.Basic
/-!
# Failing fast is pruning

Failing fast ends five loops at their first violation: the validators of a property, the properties
and the checks of a type, the items of an array and the members of an object.  None of these early
ends changes a verdict, a count of matched branches or a value that is read later.  A run that
collects everything, cut to its first findings (`Violation.pruned`), is the run that fails fast
(`run_failFast`).

The reason is one invariant of judges, `Judge.Prunes`: the fast outcome has the first violation of
the full one, pruned, and a valid outcome is the same in both modes.  Each function that asks a
judge keeps it, and `property` closes the recursion by induction on the bound.
-/
namespace SchemaTypes

/-! ## Pruning

What fails fast below a violation is a loop, so one detail is left of its list.  Branches are the
exception: all of them are judged in either mode, each by its own loops. -/

/-- Whether a violation of this kind keeps all its details: those of branches. -/
def FailureKind.keepsDetails : FailureKind → Bool
  | .compositionViolation | .conditionalViolation => true
  | _ => false

/-- The details left of a violation of this kind. -/
def FailureKind.cut {α : Type} (kind : FailureKind) (details : List α) : List α :=
  if kind.keepsDetails then details else details.take 1

mutual
/-- A violation as a run that fails fast reports it. -/
def Violation.pruned : Violation → Violation
  | ⟨property, kind, message, parameters, details⟩ =>
    ⟨property, kind, message, parameters, kind.cut (Violation.prunedDetails details)⟩
/-- Every detail with its violations cut to the first. -/
def Violation.prunedDetails : List (Detail Violation) → List (Detail Violation)
  | [] => []
  | ⟨label, passed, violations⟩ :: rest =>
    ⟨label, passed, Violation.firstPruned violations⟩ :: Violation.prunedDetails rest
def Violation.firstPruned : List Violation → List Violation
  | [] => []
  | violation :: _ => [violation.pruned]
end

/-- The report of a run that fails fast. -/
def Report.pruned (report : Report) : Report := Violation.firstPruned report

open Violation (firstPruned prunedDetails)

@[simp] theorem firstPruned_nil : firstPruned [] = [] := by rw [firstPruned]

theorem firstPruned_cons (violation : Violation) (rest : List Violation) :
    firstPruned (violation :: rest) = [violation.pruned] := by rw [firstPruned]

theorem isEmpty_firstPruned (violations : List Violation) :
    (firstPruned violations).isEmpty = violations.isEmpty := by
  cases violations with
  | nil => rw [firstPruned_nil]
  | cons violation rest => rw [firstPruned_cons]; rfl

/-- The first violation of two lists in a row is the first of the first, if that has any. -/
theorem firstPruned_append (first second : List Violation) :
    firstPruned (first ++ second) =
      if first.isEmpty then firstPruned second else firstPruned first := by
  cases first with
  | nil => rfl
  | cons violation rest => rw [List.cons_append, firstPruned_cons, firstPruned_cons]; rfl

@[simp] theorem prunedDetails_nil : prunedDetails [] = [] := by rw [prunedDetails]

theorem prunedDetails_cons (detail : Detail Violation) (rest : List (Detail Violation)) :
    prunedDetails (detail :: rest) =
      { detail with violations := firstPruned detail.violations } :: prunedDetails rest := by
  rw [prunedDetails]

namespace Verdict

def isFail : Verdict → Bool
  | .fail _ => true
  | _ => false

/-- The verdict of a check of this kind in a run that fails fast. -/
def pruned (kind : FailureKind) : Verdict → Verdict
  | .fail failure => .fail { failure with details := kind.cut (prunedDetails failure.details) }
  | verdict => verdict

theorem pruned_ofBool (kind : FailureKind) (passed : Bool) :
    (ofBool passed).pruned kind = ofBool passed := by
  cases passed <;> simp [ofBool, pruned, FailureKind.cut]

theorem pruned_failWith (kind : FailureKind) (name : String) (value : Json) :
    (failWith name value).pruned kind = failWith name value := by
  simp [failWith, pruned, FailureKind.cut]

theorem pruned_ofDetails (kind : FailureKind) (details : List (Detail Violation)) :
    (ofDetails details).pruned kind = ofDetails (kind.cut (prunedDetails details)) := by
  cases details with
  | nil => simp [ofDetails, pruned, FailureKind.cut]
  | cons detail rest =>
    rw [prunedDetails_cons]
    cases hk : kind.keepsDetails <;> simp [ofDetails, pruned, FailureKind.cut, hk, prunedDetails_cons]

theorem isFail_ofDetails {details : List (Detail Violation)} (h : (ofDetails details).isFail = false) :
    details = [] := by
  cases details with
  | nil => rfl
  | cons detail rest => simp [ofDetails, isFail] at h

end Verdict

/-- A pruned failure is reported as the pruned violation. -/
theorem Failure.violation_pruned (failure : Failure) (check : Check) (property : String) :
    Failure.violation { failure with details := check.failureKind.cut (prunedDetails failure.details) }
        check property = (failure.violation check property).pruned := by
  simp only [Failure.violation, Violation.pruned]

/-! ## Outcomes and judges -/

/-- The fast outcome has the first violation of the full one, and is the same where there is
none. -/
structure Outcome.Prunes (fast full : Outcome) : Prop where
  violations : fast.violations = firstPruned full.violations
  eq_of_isValid : full.isValid = true → fast = full

theorem Outcome.Prunes.isValid_eq {fast full : Outcome} (h : fast.Prunes full) :
    fast.isValid = full.isValid := by
  rw [Outcome.isValid, h.violations, isEmpty_firstPruned, Outcome.isValid]

theorem Outcome.violations_of_isValid {outcome : Outcome} (h : outcome.isValid = true) :
    outcome.violations = [] := List.isEmpty_iff.1 h

/-- Wherever the full judge has an outcome, the fast one has a pruned one. -/
def Judge.Prunes (fast full : Judge) : Prop :=
  ∀ id value outcome, full id value = some outcome → ∃ other, fast id value = some other ∧ other.Prunes outcome

theorem stopsAt_collectAll (violations : List Violation) :
    Mode.collectAll.stopsAt violations = false := by simp [Mode.stopsAt]

theorem stopsAt_failFast (violations : List Violation) :
    Mode.failFast.stopsAt violations = !violations.isEmpty := by simp [Mode.stopsAt]

/-! ## Parts of a value -/

theorem Judge.Prunes.survey {fast full : Judge} (h : fast.Prunes full) : ∀ (parts : List Part) (all : Survey),
    full.survey .collectAll parts = some all →
      ∃ some', fast.survey .failFast parts = some some' ∧
        some'.details = (prunedDetails all.details).take 1 ∧ (all.details = [] → some'.values = all.values)
  | [], all, e => by
    simp only [Judge.survey, Option.some.injEq] at e
    subst e
    exact ⟨{}, rfl, by simp, fun _ => rfl⟩
  | part :: rest, all, e => by
    simp only [Judge.survey, stopsAt_collectAll, Option.bind_eq_bind, Option.bind_eq_some_iff,
      Option.pure_def, if_false, Bool.false_eq_true, Option.some.injEq] at e
    obtain ⟨outcome, ho, others, hr, rfl⟩ := e
    obtain ⟨other, ho', hp⟩ := h _ _ _ ho
    simp only [Judge.survey, ho', Option.bind_eq_bind, Option.bind_some, stopsAt_failFast]
    cases hv : outcome.isValid with
    | true =>
      have hviol := Outcome.violations_of_isValid hv
      obtain ⟨some', hs, hd, hval⟩ := h.survey rest others hr
      rw [hp.eq_of_isValid hv]
      refine ⟨{ values := outcome.value :: some'.values, details := some'.details }, ?_, ?_, ?_⟩
      · simp [hs, hviol, hv]
      · simpa using hd
      · intro hn
        rw [hval (by simpa using hn)]
    | false =>
      have hv' : other.isValid = false := hp.isValid_eq.trans hv
      refine ⟨{ values := [other.value], details := [Detail.failed part.label other.violations] }, ?_, ?_, ?_⟩
      · have : other.violations.isEmpty = false := hv'
        simp [this, hv']
      · simp [prunedDetails_cons, Detail.failed, hp.violations]
      · intro hn
        simp at hn

theorem Judge.Prunes.transformItems {fast full : Judge} (h : fast.Prunes full) (label : String)
    (item : PropertyId) (offset : Nat) (items : List Json) {verdict : Verdict} {value : Json}
    (e : Evaluation.transformItems full .collectAll label item offset items = some (verdict, value)) :
    ∃ other, Evaluation.transformItems fast .failFast label item offset items =
        some (verdict.pruned .itemViolation, other) ∧ (verdict.isFail = false → other = value) := by
  simp only [Evaluation.transformItems, Option.bind_eq_bind, Option.bind_eq_some_iff, Option.pure_def,
    Option.some.injEq, Prod.mk.injEq] at e
  obtain ⟨survey, hs, rfl, rfl⟩ := e
  obtain ⟨other, ho, hd, hval⟩ := h.survey _ _ hs
  refine ⟨.array (items.take offset ++ overwrite (items.drop offset) other.values), ?_, ?_⟩
  · simp only [Evaluation.transformItems, ho, Option.bind_eq_bind, Option.bind_some, Option.pure_def]
    rw [hd, Verdict.pruned_ofDetails]
    rfl
  · intro hf
    rw [hval (Verdict.isFail_ofDetails hf)]

theorem Judge.Prunes.transformTuple {fast full : Judge} (h : fast.Prunes full)
    (positions : List PropertyId) (items : List Json) {verdict : Verdict} {value : Json}
    (e : Evaluation.transformTuple full .collectAll positions items = some (verdict, value)) :
    ∃ other, Evaluation.transformTuple fast .failFast positions items =
        some (verdict.pruned .itemViolation, other) ∧ (verdict.isFail = false → other = value) := by
  simp only [Evaluation.transformTuple, Option.bind_eq_bind, Option.bind_eq_some_iff, Option.pure_def,
    Option.some.injEq, Prod.mk.injEq] at e
  obtain ⟨survey, hs, rfl, rfl⟩ := e
  obtain ⟨other, ho, hd, hval⟩ := h.survey _ _ hs
  refine ⟨.array (overwrite items other.values), ?_, ?_⟩
  · simp only [Evaluation.transformTuple, ho, Option.bind_eq_bind, Option.bind_some, Option.pure_def]
    rw [hd, Verdict.pruned_ofDetails]
    rfl
  · intro hf
    rw [hval (Verdict.isFail_ofDetails hf)]

theorem Judge.Prunes.judgeMembers {fast full : Judge} (h : fast.Prunes full) (label : String)
    (property : PropertyId) (members : Members) {verdict : Verdict} {kind : FailureKind}
    (hk : kind.keepsDetails = false)
    (e : Evaluation.judgeMembers full .collectAll label property members = some verdict) :
    Evaluation.judgeMembers fast .failFast label property members = some (verdict.pruned kind) := by
  simp only [Evaluation.judgeMembers, Option.bind_eq_bind, Option.bind_eq_some_iff, Option.pure_def,
    Option.some.injEq] at e
  obtain ⟨survey, hs, rfl⟩ := e
  obtain ⟨other, ho, hd, -⟩ := h.survey _ _ hs
  simp only [Evaluation.judgeMembers, ho, Option.bind_eq_bind, Option.bind_some, Option.pure_def]
  rw [hd, Verdict.pruned_ofDetails, FailureKind.cut, hk]
  rfl

/-! ## Compositions and conditionals

All branches are judged in either mode, so the counts agree. -/

theorem Judge.Prunes.judgeBranches {fast full : Judge} (h : fast.Prunes full) (value : Json) :
    ∀ (branches : List Branch) (outcomes : List Outcome), Evaluation.judgeBranches full branches value = some outcomes →
      ∃ others, Evaluation.judgeBranches fast branches value = some others ∧ List.Forall₂ Outcome.Prunes others outcomes
  | [], outcomes, e => by
    simp only [Evaluation.judgeBranches, List.mapM_nil, Option.pure_def, Option.some.injEq] at e
    subst e
    exact ⟨[], rfl, .nil⟩
  | branch :: rest, outcomes, e => by
    simp only [Evaluation.judgeBranches, List.mapM_cons, Option.bind_eq_bind, Option.bind_eq_some_iff,
      Option.pure_def, Option.some.injEq] at e
    obtain ⟨outcome, ho, outcomes, hr, rfl⟩ := e
    obtain ⟨other, ho', hp⟩ := h _ _ _ ho
    obtain ⟨others, hr', hps⟩ := h.judgeBranches value rest outcomes hr
    rw [Evaluation.judgeBranches] at hr'
    exact ⟨other :: others, by simp [Evaluation.judgeBranches, ho', hr'], .cons hp hps⟩

namespace Evaluation

theorem matched_eq {others outcomes : List Outcome} (h : List.Forall₂ Outcome.Prunes others outcomes) :
    (others.filter Outcome.isValid).length = (outcomes.filter Outcome.isValid).length := by
  induction h with
  | nil => rfl
  | cons hp _ ih =>
    rw [List.filter_cons, List.filter_cons, hp.isValid_eq]
    split
    · rw [List.length_cons, List.length_cons, ih]
    · exact ih

theorem branchDetails_pruned {others outcomes : List Outcome}
    (h : List.Forall₂ Outcome.Prunes others outcomes) :
    branchDetails others = prunedDetails (branchDetails outcomes) := by
  unfold branchDetails
  generalize 0 = start
  induction h generalizing start with
  | nil => rw [List.zipIdx_nil, List.map_nil, prunedDetails_nil]
  | cons hp _ ih =>
    rw [List.zipIdx_cons, List.zipIdx_cons, List.map_cons, List.map_cons, prunedDetails_cons, ih]
    simp only [hp.isValid_eq, hp.violations]

theorem compositionVerdict_pruned (combinator : Combinator) {others outcomes : List Outcome}
    (h : List.Forall₂ Outcome.Prunes others outcomes) :
    compositionVerdict combinator others =
      (compositionVerdict combinator outcomes).pruned .compositionViolation := by
  unfold compositionVerdict
  rw [matched_eq h, h.length_eq, branchDetails_pruned h]
  simp only
  split <;> rfl

end Evaluation

theorem Judge.Prunes.judgeConditional {fast full : Judge} (h : fast.Prunes full) (condition : PropertyId)
    (consequent alternative : Option PropertyId) (value : Json) {verdict : Verdict}
    (e : Evaluation.judgeConditional full condition consequent alternative value = some verdict) :
    Evaluation.judgeConditional fast condition consequent alternative value =
      some (verdict.pruned .conditionalViolation) := by
  simp only [Evaluation.judgeConditional, Option.bind_eq_bind, Option.bind_eq_some_iff] at e
  obtain ⟨premise, hp, e⟩ := e
  obtain ⟨premise', hp', hpr⟩ := h _ _ _ hp
  simp only [Evaluation.judgeConditional, hp', Option.bind_eq_bind, Option.bind_some, hpr.isValid_eq]
  cases hc : (if premise.isValid = true then consequent else alternative) with
  | none =>
    rw [hc] at e
    simp only [Option.pure_def, Option.some.injEq] at e
    rw [← e]
    rfl
  | some consequence =>
    rw [hc] at e
    simp only [Option.bind_eq_some_iff] at e
    obtain ⟨outcome, ho, e⟩ := e
    obtain ⟨outcome', ho', hpo⟩ := h _ _ _ ho
    simp only [ho', Option.bind_some, hpo.isValid_eq]
    cases hv : outcome.isValid with
    | true =>
      simp only [hv, if_true, Option.pure_def, Option.some.injEq] at e
      rw [← e]
      rfl
    | false =>
      simp only [hv, Bool.false_eq_true, if_false, Option.pure_def, Option.some.injEq] at e
      rw [← e, Verdict.pruned_ofDetails]
      simp [FailureKind.cut, FailureKind.keepsDetails, prunedDetails_cons, Detail.failed, hpr.violations,
        hpo.violations]

/-! ## Checks that leave the value alone -/

theorem Judge.Prunes.anyValid {fast full : Judge} (h : fast.Prunes full) (item : PropertyId) :
    ∀ (items : List Json) (answer : Bool), Evaluation.anyValid full item items = some answer →
      Evaluation.anyValid fast item items = some answer
  | [], _, e => e
  | value :: rest, answer, e => by
    simp only [Evaluation.anyValid, Option.bind_eq_bind, Option.bind_eq_some_iff] at e
    obtain ⟨outcome, ho, e⟩ := e
    obtain ⟨other, ho', hp⟩ := h _ _ _ ho
    simp only [Evaluation.anyValid, ho', Option.bind_eq_bind, Option.bind_some, hp.isValid_eq]
    cases hv : outcome.isValid with
    | true => simpa [hv] using e
    | false => exact h.anyValid item rest answer (by simpa [hv] using e)

theorem Judge.Prunes.inspectArray {fast full : Judge} (h : fast.Prunes full) (items : List Json)
    (check : Check) {verdict : Verdict} (e : Evaluation.inspectArray full items check = some verdict) :
    Evaluation.inspectArray fast items check = some (verdict.pruned check.failureKind) := by
  cases check with
  | contains item =>
    simp only [Evaluation.inspectArray, Option.bind_eq_bind, Option.bind_eq_some_iff, Option.pure_def,
      Option.some.injEq] at e
    obtain ⟨answer, ha, rfl⟩ := e
    simp only [Evaluation.inspectArray, h.anyValid item items answer ha, Option.bind_eq_bind,
      Option.bind_some, Option.pure_def, Verdict.pruned_ofBool]
  | noAdditionalItems expected =>
    simp only [Evaluation.inspectArray] at e ⊢
    split at e <;> rename_i hc <;> simp only [hc, if_true, if_false, Option.some.injEq] at e ⊢ <;> rw [← e]
    · rw [Verdict.pruned_failWith]
    · rfl
  | _ =>
    simp only [Evaluation.inspectArray, Option.some.injEq] at e ⊢
    rw [← e]
    first | rw [Verdict.pruned_ofBool] | rfl

theorem Judge.Prunes.inspectObject {fast full : Judge} (h : fast.Prunes full) (members : Members)
    (check : Check) {verdict : Verdict}
    (e : Evaluation.inspectObject full .collectAll members check = some verdict) :
    Evaluation.inspectObject fast .failFast members check = some (verdict.pruned check.failureKind) := by
  have names : ∀ (parameter : String) (names : List String) (kind : FailureKind),
      (Evaluation.rejectNames parameter names).pruned kind = Evaluation.rejectNames parameter names := by
    intro parameter names kind
    unfold Evaluation.rejectNames
    split
    · rfl
    · exact Verdict.pruned_failWith kind parameter _
  cases check with
  | noAdditionalProperties className known patterns =>
    simp only [Evaluation.inspectObject, Option.some.injEq] at e ⊢
    rw [← e, names]
  | additionalProperties className known patterns property =>
    exact h.judgeMembers _ property _ rfl e
  | patternProperty className regex key property =>
    exact h.judgeMembers _ property _ rfl e
  | propertyNames className property =>
    exact h.judgeMembers _ property _ rfl e
  | propertyDependency trigger dependants =>
    simp only [Evaluation.inspectObject] at e ⊢
    split at e <;> rename_i hc <;> simp only [hc, if_true, if_false, Option.some.injEq,
      Bool.false_eq_true] at e ⊢ <;> rw [← e]
    · rw [names]
    · rfl
  | schemaDependency trigger property =>
    simp only [Evaluation.inspectObject] at e ⊢
    split at e
    · rename_i hc
      simp only [Option.bind_eq_bind, Option.bind_eq_some_iff] at e
      obtain ⟨outcome, ho, e⟩ := e
      obtain ⟨other, ho', hp⟩ := h _ _ _ ho
      simp only [hc, if_true, ho', Option.bind_eq_bind, Option.bind_some, hp.isValid_eq]
      cases hv : outcome.isValid with
      | true =>
        simp only [hv, if_true, Option.pure_def, Option.some.injEq] at e ⊢
        rw [← e]
        rfl
      | false =>
        simp only [hv, Bool.false_eq_true, if_false, Option.pure_def, Option.some.injEq] at e ⊢
        rw [← e, Verdict.pruned_ofDetails]
        simp [Check.failureKind, FailureKind.cut, FailureKind.keepsDetails, prunedDetails_cons,
          Detail.failed, hp.violations]
    · rename_i hc
      simp only [hc, if_false, Option.pure_def, Option.some.injEq, Bool.false_eq_true] at e ⊢
      rw [← e]
      rfl
  | _ =>
    simp only [Evaluation.inspectObject, Option.some.injEq] at e ⊢
    rw [← e]
    first | rw [Verdict.pruned_ofBool] | rfl

theorem inspectNumber_pruned (value : Number) (check : Check) (kind : FailureKind) :
    (Evaluation.inspectNumber value check).pruned kind = Evaluation.inspectNumber value check := by
  cases check <;> simp only [Evaluation.inspectNumber, Verdict.pruned_ofBool] <;> rfl

theorem inspectString_pruned (text : String) (check : Check) (kind : FailureKind) :
    (Evaluation.inspectString text check).pruned kind = Evaluation.inspectString text check := by
  cases check <;> simp only [Evaluation.inspectString, Verdict.pruned_ofBool] <;> rfl

theorem Judge.Prunes.inspect {fast full : Judge} (h : fast.Prunes full) (check : Check) (value : Json)
    {verdict : Verdict} (e : Evaluation.inspect full .collectAll check value = some verdict) :
    Evaluation.inspect fast .failFast check value = some (verdict.pruned check.failureKind) := by
  unfold Evaluation.inspect at e ⊢
  split at e
  · rename_i hs
    simp only [hs, if_true, Option.some.injEq] at e ⊢
    rw [← e]
    rfl
  · rename_i hs
    simp only [hs, if_false, Bool.false_eq_true]
    cases check with
    | type kinds settles =>
      simp only at e ⊢
      split at e <;> rename_i hk <;> simp only [hk, if_true, if_false, Option.some.injEq,
        Bool.false_eq_true] at e ⊢ <;> rw [← e]
      · rfl
      · rw [Verdict.pruned_failWith]
    | composition combinator branches onObject =>
      simp only [Option.bind_eq_bind, Option.bind_eq_some_iff, Option.pure_def, Option.some.injEq] at e
      obtain ⟨outcomes, ho, rfl⟩ := e
      obtain ⟨others, ho', hp⟩ := h.judgeBranches value branches outcomes ho
      simp only [ho', Option.bind_eq_bind, Option.bind_some, Option.pure_def,
        Evaluation.compositionVerdict_pruned combinator hp]
      rfl
    | conditional condition consequent alternative onObject =>
      exact h.judgeConditional condition consequent alternative value e
    | enumeration values settles =>
      simp only [Option.some.injEq] at e ⊢
      rw [← e, Verdict.pruned_ofBool]
    | constant expected =>
      simp only [Option.some.injEq] at e ⊢
      rw [← e, Verdict.pruned_ofBool]
    | custom description accepts =>
      simp only [Option.some.injEq] at e ⊢
      rw [← e, Verdict.pruned_ofBool]
    | _ =>
      cases value with
      | number n =>
        simp only [Option.some.injEq] at e ⊢
        rw [← e, inspectNumber_pruned]
      | string text =>
        simp only [Option.some.injEq] at e ⊢
        rw [← e, inspectString_pruned]
      | array items => exact h.inspectArray items _ e
      | object members => exact h.inspectObject members _ e
      | _ =>
        simp only [Option.some.injEq] at e ⊢
        rw [← e]
        rfl

/-! ## Objects -/

/-- The fast model has the first violation, and is the same where there is none. -/
structure Evaluation.Populated.Prunes (fast full : Evaluation.Populated) : Prop where
  violations : fast.violations = firstPruned full.violations
  eq_of_nil : full.violations = [] → fast = full

namespace Evaluation

theorem passing_eq : ∀ (branches : List Branch) {others outcomes : List Outcome},
    List.Forall₂ Outcome.Prunes others outcomes →
      (branches.zip others).filter (·.2.isValid) = (branches.zip outcomes).filter (·.2.isValid)
  | [], _, _, _ => rfl
  | _ :: _, _, _, .nil => rfl
  | branch :: rest, _, _, .cons hp hps => by
    rw [List.zip_cons_cons, List.zip_cons_cons, List.filter_cons, List.filter_cons, passing_eq rest hps,
      hp.isValid_eq]
    split
    · rename_i hv
      rw [hp.eq_of_isValid hv]
    · rfl

theorem failing_eq : ∀ (branches : List Branch) {others outcomes : List Outcome},
    List.Forall₂ Outcome.Prunes others outcomes →
      ((branches.zip others).filter (!·.2.isValid)).map (·.1) =
        ((branches.zip outcomes).filter (!·.2.isValid)).map (·.1)
  | [], _, _, _ => rfl
  | _ :: _, _, _, .nil => rfl
  | branch :: rest, _, _, .cons hp hps => by
    rw [List.zip_cons_cons, List.zip_cons_cons, List.filter_cons, List.filter_cons, hp.isValid_eq]
    split
    · rw [List.map_cons, List.map_cons, failing_eq rest hps]
    · exact failing_eq rest hps

/-- Of passing branches the output is read, which is the same in both modes, and of failing ones only
the names. -/
theorem populate_eq (model : Members) (branches : List Branch) {others outcomes : List Outcome}
    (h : List.Forall₂ Outcome.Prunes others outcomes) :
    populate model (branches.zip others) = populate model (branches.zip outcomes) := by
  have resets : ∀ (results : List (Branch × Outcome)) (populated : List String) (start : Members),
      results.foldl (fun model result => reset model result.1.affected populated) start =
        (results.map (·.1)).foldl (fun model branch => reset model branch.affected populated) start := by
    intro results populated start
    rw [List.foldl_map]
  simp only [populate]
  rw [passing_eq branches h, resets, resets, failing_eq branches h]

end Evaluation

theorem Judge.Prunes.runTypeCheck {fast full : Judge} (h : fast.Prunes full) (input model : Members)
    (check : Check) {verdict : Verdict} {changed : Members}
    (e : Evaluation.runTypeCheck .collectAll full input model check = some (verdict, changed)) :
    Evaluation.runTypeCheck .failFast fast input model check =
      some (verdict.pruned check.failureKind, changed) := by
  unfold Evaluation.runTypeCheck at e ⊢
  split at e
  · simp only [Option.bind_eq_bind, Option.bind_eq_some_iff, Option.pure_def, Option.some.injEq,
      Prod.mk.injEq] at e
    obtain ⟨outcomes, ho, rfl, rfl⟩ := e
    obtain ⟨others, ho', hp⟩ := h.judgeBranches _ _ outcomes ho
    simp only [ho', Option.bind_eq_bind, Option.bind_some, Option.pure_def,
      Evaluation.compositionVerdict_pruned _ hp, Evaluation.populate_eq model _ hp]
    rfl
  · simp only [Option.bind_eq_bind, Option.bind_eq_some_iff, Option.pure_def, Option.some.injEq,
      Prod.mk.injEq] at e
    obtain ⟨verdict, hv, rfl, rfl⟩ := e
    simp only [h.inspect _ _ hv, Option.bind_eq_bind, Option.bind_some, Option.pure_def]

theorem Judge.Prunes.evaluateTypeChecks {fast full : Judge} (h : fast.Prunes full) (className : String)
    (input : Members) : ∀ (validators : List Validator) (model : Members) (all : Evaluation.Populated),
      Evaluation.evaluateTypeChecks .collectAll full className input validators model = some all →
        ∃ first, Evaluation.evaluateTypeChecks .failFast fast className input validators model = some first ∧
          first.Prunes all
  | [], model, all, e => by
    simp only [Evaluation.evaluateTypeChecks, Option.some.injEq] at e
    subst e
    exact ⟨{ model }, rfl, by simp, fun _ => rfl⟩
  | validator :: rest, model, all, e => by
    simp only [Evaluation.evaluateTypeChecks, Option.bind_eq_bind, Option.bind_eq_some_iff,
      Prod.exists] at e
    obtain ⟨verdict, changed, hv, e⟩ := e
    simp only [Evaluation.evaluateTypeChecks, h.runTypeCheck _ _ _ hv, Option.bind_eq_bind,
      Option.bind_some]
    cases verdict with
    | pass => exact h.evaluateTypeChecks className input rest changed all e
    | settle => exact h.evaluateTypeChecks className input rest changed all e
    | fail failure =>
      simp only [reduceCtorEq, if_false, Option.bind_eq_some_iff, Option.pure_def, Option.some.injEq] at e
      obtain ⟨others, -, rfl⟩ := e
      refine ⟨_, rfl, ?_, fun hn => by simp at hn⟩
      rw [firstPruned_cons, ← Failure.violation_pruned]

theorem Judge.Prunes.evaluateProperties {fast full : Judge} (h : fast.Prunes full) (graph : Graph)
    (input : Members) : ∀ (ids : List PropertyId) (model : Members) (all : Evaluation.Populated),
      Evaluation.evaluateProperties graph .collectAll full input ids model = some all →
        ∃ first, Evaluation.evaluateProperties graph .failFast fast input ids model = some first ∧
          first.Prunes all
  | [], model, all, e => by
    simp only [Evaluation.evaluateProperties, Option.some.injEq] at e
    subst e
    exact ⟨{ model }, rfl, by simp, fun _ => rfl⟩
  | id :: rest, model, all, e => by
    simp only [Evaluation.evaluateProperties, stopsAt_collectAll, Bool.false_eq_true, if_false,
      Option.bind_eq_bind, Option.bind_eq_some_iff, Option.pure_def, Option.some.injEq] at e
    obtain ⟨outcome, ho, others, hr, rfl⟩ := e
    obtain ⟨other, ho', hp⟩ := h _ _ _ ho
    simp only [Evaluation.evaluateProperties, ho', Option.bind_eq_bind, Option.bind_some, stopsAt_failFast]
    cases hv : outcome.isValid with
    | true =>
      have hviol := Outcome.violations_of_isValid hv
      obtain ⟨first, hf, hfp⟩ := h.evaluateProperties graph input rest _ others hr
      rw [hp.eq_of_isValid hv]
      refine ⟨first, ?_, ?_, ?_⟩
      · simp only [hviol, List.isEmpty_nil, Bool.not_true, Bool.false_eq_true, if_false,
          Option.bind_eq_some_iff, Option.pure_def, Option.some.injEq, List.nil_append]
        exact ⟨first, hf, rfl⟩
      · rw [hviol, List.nil_append, hfp.violations]
      · intro hn
        rw [hviol, List.nil_append] at hn ⊢
        exact hfp.eq_of_nil hn
    | false =>
      have hv' : other.violations.isEmpty = false := hp.isValid_eq.trans hv
      have hv'' : outcome.violations.isEmpty = false := hv
      simp only [hv', Bool.not_false, if_true, Option.pure_def, Option.some.injEq, exists_eq_left']
      refine ⟨?_, fun hn => ?_⟩
      · rw [firstPruned_append, hv'', hp.violations]
        rfl
      · rw [List.append_eq_nil_iff] at hn
        simp [hn.1] at hv''

theorem Judge.Prunes.evaluateObject {fast full : Judge} (h : fast.Prunes full) (graph : Graph) (id : TypeId)
    (input : Members) {all : Evaluation.Populated}
    (e : Evaluation.evaluateObject graph .collectAll full id input = some all) :
    ∃ first, Evaluation.evaluateObject graph .failFast fast id input = some first ∧ first.Prunes all := by
  simp only [Evaluation.evaluateObject, stopsAt_collectAll, Bool.false_eq_true, if_false,
    Option.bind_eq_bind, Option.bind_eq_some_iff, Option.pure_def, Option.some.injEq] at e
  obtain ⟨properties, hp, checks, hc, rfl⟩ := e
  obtain ⟨properties', hp', hpp⟩ := h.evaluateProperties graph input _ _ _ hp
  simp only [Evaluation.evaluateObject, hp', Option.bind_eq_bind, Option.bind_some, stopsAt_failFast,
    hpp.violations, isEmpty_firstPruned]
  cases hv : properties.violations.isEmpty with
  | true =>
    have hn := List.isEmpty_iff.1 hv
    obtain ⟨checks', hc', hcp⟩ := h.evaluateTypeChecks _ input _ _ _ hc
    rw [hpp.eq_of_nil hn, hc']
    refine ⟨checks', by simp [hn], ?_, fun hn' => ?_⟩
    · rw [hn, List.nil_append, hcp.violations]
    · rw [hn, List.nil_append] at hn' ⊢
      exact hcp.eq_of_nil hn'
  | false =>
    simp only [Bool.not_false, if_true, Option.pure_def, Option.some.injEq, exists_eq_left']
    refine ⟨?_, fun hn => ?_⟩
    · rw [firstPruned_append, hv, hpp.violations]
      rfl
    · rw [List.append_eq_nil_iff] at hn
      simp [hn.1] at hv

/-! ## Properties -/

theorem transformByFilter_pruned (accepts : List Kind) (apply : FilterFunction) (options value : Json)
    (kind : FailureKind) {verdict : Verdict} {changed : Json}
    (e : Evaluation.transformByFilter accepts apply options value = (verdict, changed)) :
    verdict.pruned kind = verdict := by
  unfold Evaluation.transformByFilter at e
  split at e
  · split at e <;> obtain ⟨rfl, -⟩ := Prod.mk.inj e
    · rfl
    · rw [Verdict.pruned_failWith]
  · obtain ⟨rfl, -⟩ := Prod.mk.inj e
    rfl

theorem Judge.Prunes.transform {fast full : Judge} (h : fast.Prunes full) (graph : Graph) (check : Check)
    (value : Json) {verdict : Verdict} {changed : Json}
    (e : Evaluation.transform graph .collectAll full check value = some (verdict, changed)) :
    ∃ other, Evaluation.transform graph .failFast fast check value =
        some (verdict.pruned check.failureKind, other) ∧ (verdict.isFail = false → other = changed) := by
  unfold Evaluation.transform at e ⊢
  split at e
  · simp only [Option.some.injEq] at e ⊢
    refine ⟨changed, ?_, fun _ => rfl⟩
    rw [e, transformByFilter_pruned _ _ _ _ _ e]
  · exact h.transformItems _ _ _ _ e
  · exact h.transformItems _ _ _ _ e
  · exact h.transformTuple _ _ e
  · rename_i type members
    simp only [Option.bind_eq_bind, Option.bind_eq_some_iff, Option.pure_def, Option.some.injEq,
      Prod.mk.injEq] at e
    obtain ⟨result, hr, rfl, rfl⟩ := e
    obtain ⟨first, hf, hp⟩ := h.evaluateObject graph type members hr
    refine ⟨.object first.model, ?_, fun hn => ?_⟩
    · simp only [hf, Option.bind_eq_bind, Option.bind_some, Option.pure_def, hp.violations,
        isEmpty_firstPruned, Verdict.pruned_ofDetails]
      split
      · rfl
      · simp [Check.failureKind, FailureKind.cut, FailureKind.keepsDetails, prunedDetails_cons,
          Detail.failed]
    · have hd := Verdict.isFail_ofDetails hn
      have hv : result.violations = [] := by
        by_contra hne
        rw [if_neg (by simpa using hne)] at hd
        exact List.cons_ne_nil _ _ hd
      rw [hp.eq_of_nil hv]
  · simp only [Option.bind_eq_bind, Option.bind_eq_some_iff, Option.pure_def, Option.some.injEq,
      Prod.mk.injEq] at e
    obtain ⟨verdict, hv, rfl, rfl⟩ := e
    exact ⟨value, by simp only [h.inspect _ _ hv, Option.bind_eq_bind, Option.bind_some, Option.pure_def],
      fun _ => rfl⟩

theorem Judge.Prunes.runCheck {fast full : Judge} (h : fast.Prunes full) (graph : Graph) (check : Check)
    (value : Option Json) {verdict : Verdict} {changed : Option Json}
    (e : Evaluation.runCheck graph .collectAll full check value = some (verdict, changed)) :
    ∃ other, Evaluation.runCheck graph .failFast fast check value =
        some (verdict.pruned check.failureKind, other) ∧ (verdict.isFail = false → other = changed) := by
  cases value with
  | none =>
    simp only [Evaluation.runCheck, Option.some.injEq, Prod.mk.injEq] at e
    obtain ⟨rfl, rfl⟩ := e
    refine ⟨none, ?_, fun _ => rfl⟩
    simp only [Evaluation.runCheck]
    split <;> simp [Verdict.pruned, FailureKind.cut]
  | some value =>
    simp only [Evaluation.runCheck, Option.bind_eq_bind, Option.bind_eq_some_iff, Option.pure_def,
      Option.some.injEq, Prod.mk.injEq, Prod.exists] at e
    obtain ⟨verdict', changed', he, rfl, rfl⟩ := e
    obtain ⟨other, ho, hval⟩ := h.transform graph check value he
    refine ⟨some other, ?_, fun hn => by rw [hval hn]⟩
    simp only [Evaluation.runCheck, ho, Option.bind_eq_bind, Option.bind_some, Option.pure_def]

/-- Up to the first failure both modes see the same values; behind it a run that collects everything
only adds violations. -/
theorem Judge.Prunes.runValidators {fast full : Judge} (h : fast.Prunes full) (graph : Graph)
    (name : String) : ∀ (validators : List Validator) (value : Option Json) (outcome : Outcome),
      Evaluation.runValidators graph .collectAll full name validators value = some outcome →
        ∃ other, Evaluation.runValidators graph .failFast fast name validators value = some other ∧
          other.Prunes outcome
  | [], value, outcome, e => by
    simp only [Evaluation.runValidators, Option.some.injEq] at e
    subst e
    exact ⟨{ value }, rfl, by simp, fun _ => rfl⟩
  | validator :: rest, value, outcome, e => by
    simp only [Evaluation.runValidators, Option.bind_eq_bind, Option.bind_eq_some_iff, Prod.exists] at e
    obtain ⟨verdict, changed, hv, e⟩ := e
    obtain ⟨other, ho, hval⟩ := h.runCheck graph validator.check value hv
    simp only [Evaluation.runValidators, ho, Option.bind_eq_bind, Option.bind_some]
    cases verdict with
    | pass =>
      rw [hval rfl]
      exact h.runValidators graph name rest changed outcome e
    | settle =>
      simp only [Option.pure_def, Option.some.injEq] at e
      rw [hval rfl, ← e]
      exact ⟨{ value := changed }, rfl, by simp, fun _ => rfl⟩
    | fail failure =>
      simp only [reduceCtorEq, if_false, Option.bind_eq_some_iff, Option.pure_def, Option.some.injEq] at e
      obtain ⟨others, -, rfl⟩ := e
      refine ⟨_, rfl, ?_, fun hn => by simp [Outcome.isValid] at hn⟩
      rw [firstPruned_cons, ← Failure.violation_pruned]

namespace Evaluation

/-- **Judging by a property fails fast by pruning**, whatever the bound. -/
theorem property_prunes (graph : Graph) : ∀ bound : Nat,
    Judge.Prunes (property graph .failFast bound) (property graph .collectAll bound)
  | 0 => fun _ _ _ e => by simp [property] at e
  | bound + 1 => fun id value outcome e =>
    (property_prunes graph bound).runValidators graph (graph.property id).name _ value outcome e

/-- **Failing fast is pruning.**  Whenever the run that collects everything ends within a bound, so
does the one that fails fast: its report is the first violation, pruned, it is valid if and only if
the other is, and then the models are equal.  What `Graph.evaluate` answers is what some bound brings. -/
theorem run_failFast (graph : Graph) (bound : Nat) (type : TypeId) (value : Json) (full : Result)
    (h : run graph .collectAll bound type value = some full) :
    ∃ fast, run graph .failFast bound type value = some fast ∧
      fast.report = Report.pruned full.report ∧ fast.isValid = full.isValid ∧
      (full.isValid = true → fast.model = full.model) := by
  unfold run at h ⊢
  split at h
  · simp only [Option.bind_eq_bind, Option.bind_eq_some_iff, Option.pure_def, Option.some.injEq] at h
    obtain ⟨all, ha, rfl⟩ := h
    obtain ⟨first, hf, hp⟩ := (property_prunes graph bound).evaluateObject graph type _ ha
    refine ⟨{ model := .object first.model, report := first.violations }, ?_, hp.violations, ?_, ?_⟩
    · simp only [hf, Option.bind_eq_bind, Option.bind_some, Option.pure_def]
    · simp only [Result.isValid, hp.violations, isEmpty_firstPruned]
    · intro hv
      rw [hp.eq_of_nil (List.isEmpty_iff.1 hv)]
  · simp only [Option.some.injEq] at h
    subst h
    refine ⟨_, rfl, ?_, rfl, fun _ => rfl⟩
    simp [notAnObject, Report.pruned, firstPruned_cons, Failure.violation, Violation.pruned,
      FailureKind.cut]

/-- An object with a list of words, and either a short or a lower-case code. -/
def wordsGraph : Graph where
  properties := #[
    { name := "words", identifier := "words", required := false,
      validators := Validators.empty.addCheck (.items ⟨1⟩) },
    { name := "word", identifier := "word", required := false,
      validators := (Validators.empty.addCheck (.type [.string] false)).addCheck (.minLength 2) },
    { name := "code", identifier := "code", required := false,
      validators := Validators.empty.addCheck (.composition .anyOf [⟨⟨1⟩, []⟩, ⟨⟨3⟩, []⟩] false) },
    { name := "code", identifier := "code", required := false,
      validators := (Validators.empty.addCheck (.minLength 5)).addCheck (.maxLength 0) }]
  types := #[{ name := ⟨"", "Words"⟩, isRoot := true, properties := [⟨0⟩, ⟨2⟩] }]

/-- Two bad words and a code that no branch accepts: three findings at depth two, of which one is
left. -/
theorem run_failFast_words :
    ∃ full fast, run wordsGraph .collectAll 2 ⟨0⟩
        (.object [("words", .array [.null, .string "a"]), ("code", .string "b")]) = some full ∧
      run wordsGraph .failFast 2 ⟨0⟩
        (.object [("words", .array [.null, .string "a"]), ("code", .string "b")]) = some fast ∧
      full.report.length = 2 ∧ fast.report = Report.pruned full.report ∧ fast.isValid = full.isValid ∧
      (full.isValid = true → fast.model = full.model) := by
  obtain ⟨fast, hf, hr, hv, hm⟩ := run_failFast wordsGraph 2 ⟨0⟩
    (.object [("words", .array [.null, .string "a"]), ("code", .string "b")]) _ rfl
  exact ⟨_, fast, rfl, hf, rfl, hr, hv, hm⟩

end Evaluation
end SchemaTypes
