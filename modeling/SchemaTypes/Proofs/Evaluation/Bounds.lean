import Mathlib.Data.Set.Defs
import SchemaTypes.Proofs.Evaluation.Compositions
import SchemaTypes.Proofs.Evaluation.GivenValue
/-!
# Bounds

Integers of both machine ranges are ordered by what they are, and never as doubles.  So a bound whose limit is an integer
lets exactly the integers of its interval pass, and a property with several of them accepts exactly the integers that lie in
all of their intervals (`Graph.bounds_exact`).
-/
namespace SchemaTypes

/-- The integers that a bound is to let pass, if its limit is an integer. -/
def Check.interval? : Check → Option (Set ℤ)
  | .minimum (.integer limit) exclusive => some (if exclusive then {i | limit < i} else {i | limit ≤ i})
  | .maximum (.integer limit) exclusive => some (if exclusive then {i | i < limit} else {i | i ≤ limit})
  | _ => none

variable {check : Check} {interval : Set ℤ} {i j : ℤ}

theorem Check.isShallow_of_interval (h : check.interval? = some interval) : check.isShallow = true := by
  cases check <;> first | rfl | cases h

/-! ## Order -/

namespace Number

theorem compare_integer_lt : (integer i).compare (integer j) = .lt ↔ i < j := by
  rw [compare_integer, Std.compare_eq_lt]

theorem compare_integer_eq : (integer i).compare (integer j) = .eq ↔ i = j := by
  rw [compare_integer, Std.LawfulEqCmp.compare_eq_iff_eq]

theorem compare_integer_gt : (integer i).compare (integer j) = .gt ↔ j < i := by
  rw [compare_integer, Std.compare_eq_gt]

/-- Only a float keeps two numbers from being compared as integers. -/
theorem compareIntegers?_eq_none_iff {a b : Number} :
    a.compareIntegers? b = none ↔ (∃ x, a = .float x) ∨ ∃ x, b = .float x := by
  cases a with
  | float x => exact iff_of_true (compareIntegers?_float_left x b) (.inl ⟨x, rfl⟩)
  | integer i =>
    cases b with
    | float x => exact iff_of_true (compareIntegers?_float_right _ x) (.inr ⟨x, rfl⟩)
    | integer j => simp [compareIntegers?_integer]

end Number

namespace Evaluation

variable {graph : Graph} {mode : Mode} {judge : Judge} {name : String}

/-! ## One bound -/

theorem isWithin_iff {order side : Ordering} {exclusive : Bool} :
    isWithin order side exclusive = true ↔ order = side ∨ order = .eq ∧ exclusive = false := by
  unfold isWithin
  rw [Bool.or_eq_true, Bool.and_eq_true, decide_eq_true_iff, decide_eq_true_iff, Bool.not_eq_true']

theorem isWithin_gt {exclusive : Bool} : isWithin ((Number.integer i).compare (.integer j)) .gt exclusive = true ↔
    i ∈ if exclusive then {i | j < i} else {i | j ≤ i} := by
  rw [isWithin_iff, Number.compare_integer_gt, Number.compare_integer_eq]
  cases exclusive with
  | true => simp
  | false =>
    simp only [and_true, if_neg Bool.false_ne_true, Set.mem_ofPred_eq]
    omega

theorem isWithin_lt {exclusive : Bool} : isWithin ((Number.integer i).compare (.integer j)) .lt exclusive = true ↔
    i ∈ if exclusive then {i | i < j} else {i | i ≤ j} := by
  rw [isWithin_iff, Number.compare_integer_lt, Number.compare_integer_eq]
  cases exclusive with
  | true => simp
  | false =>
    simp only [and_true, if_neg Bool.false_ne_true, Set.mem_ofPred_eq]
    omega

/-- **A bound lets the integers of its interval pass**, and fails on all others. -/
theorem transform_bound (graph : Graph) (mode : Mode) (judge : Judge) (h : check.interval? = some interval) (i : ℤ) :
    ∃ passed, transform graph mode judge check (.number (.integer i)) = some (.ofBool passed, .number (.integer i)) ∧
      (passed = true ↔ i ∈ interval) := by
  rw [transform_shallow graph (Check.isShallow_of_interval h)]
  unfold Check.interval? at h
  split at h
  · obtain rfl := Option.some.inj h
    exact ⟨_, rfl, isWithin_gt⟩
  · obtain rfl := Option.some.inj h
    exact ⟨_, rfl, isWithin_lt⟩
  · cases h

/-! ## Several bounds -/

/-- One bound after the other. -/
theorem runValidators_bounds (graph : Graph) (mode : Mode) (judge : Judge) (name : String) (i : ℤ) :
    ∀ {validators : List Validator}, (∀ v ∈ validators, v.check.interval?.isSome = true) → ∃ outcome,
      runValidators graph mode judge name validators (some (.number (.integer i))) = some outcome ∧
        outcome.value = some (.number (.integer i)) ∧
        (outcome.isValid = true ↔ ∀ v ∈ validators, ∀ interval, v.check.interval? = some interval → i ∈ interval)
  | [], _ => ⟨_, rfl, rfl, iff_of_true rfl (List.forall_mem_nil _)⟩
  | validator :: rest, h => by
    obtain ⟨hfirst, hrest⟩ := List.forall_mem_cons.1 h
    obtain ⟨interval, hinterval⟩ := Option.isSome_iff_exists.1 hfirst
    obtain ⟨passed, htransform, hpassed⟩ := transform_bound graph mode judge hinterval i
    obtain ⟨later, hlater, hvalue, hvalid⟩ := runValidators_bounds graph mode judge name i hrest
    have hcheck : runCheck graph mode judge validator.check (some (.number (.integer i))) =
        some (.ofBool passed, some (.number (.integer i))) := by
      rw [runCheck, htransform]
      rfl
    have hhead : (∀ other, validator.check.interval? = some other → i ∈ other) ↔ i ∈ interval := by
      simp [hinterval]
    rw [List.forall_mem_cons, hhead, ← hpassed, ← hvalid]
    cases passed with
    | true =>
      rw [runValidators_of_pass hcheck]
      exact ⟨later, hlater, hvalue, by simp⟩
    | false =>
      rw [runValidators, hcheck]
      cases mode with
      | failFast => exact ⟨_, rfl, rfl, by simp [Outcome.isValid]⟩
      | collectAll =>
        simp only [Option.bind_eq_bind, Option.bind_some, Verdict.ofBool, Bool.false_eq_true, if_false, reduceCtorEq, hlater]
        exact ⟨_, rfl, hvalue, by simp [Outcome.isValid]⟩

end Evaluation

namespace Graph

open Evaluation

/-- **Bounds are exact on integers.**  Two numbers are compared as doubles only if one of them is a float, and the order of
two integers is that of their values.
A bound with an integer limit passes exactly on the integers of its interval, and a property that has nothing but such bounds
accepts exactly the integers of all their intervals. -/
theorem bounds_exact :
    (∀ a b : Number, a.compareIntegers? b = none ↔ (∃ x, a = .float x) ∨ ∃ x, b = .float x) ∧
    (∀ i j : ℤ, (Number.integer i).compareIntegers? (.integer j) = some ((Number.integer i).compare (.integer j)) ∧
      ((Number.integer i).compare (.integer j) = .lt ↔ i < j) ∧
      ((Number.integer i).compare (.integer j) = .eq ↔ i = j) ∧
      ((Number.integer i).compare (.integer j) = .gt ↔ j < i)) ∧
    (∀ check interval, Check.interval? check = some interval → ∀ graph mode judge (i : ℤ), ∃ passed,
      transform graph mode judge check (.number (.integer i)) = some (.ofBool passed, .number (.integer i)) ∧
        (passed = true ↔ i ∈ interval)) ∧
    ∀ (graph : Graph) mode id (i : ℤ),
      (∀ v ∈ (graph.property id).validators.toList, v.check.interval?.isSome = true) → ∃ outcome,
        graph.evaluateProperty mode id (some (.number (.integer i))) = some outcome ∧
          outcome.value = some (.number (.integer i)) ∧
          (outcome.isValid = true ↔ ∀ v ∈ (graph.property id).validators.toList, ∀ interval,
            v.check.interval? = some interval → i ∈ interval) := by
  refine ⟨fun a b => Number.compareIntegers?_eq_none_iff,
    fun i j => ⟨?_, Number.compare_integer_lt, Number.compare_integer_eq, Number.compare_integer_gt⟩,
    fun check interval h graph mode judge i => transform_bound graph mode judge h i, fun graph mode id i h => ?_⟩
  · rw [Number.compareIntegers?_integer, Number.compare_integer]
  · obtain ⟨outcome, hrun, hvalue, hvalid⟩ := runValidators_bounds graph mode (Evaluation.property graph mode 0)
      (graph.property id).name i h
    exact ⟨outcome, evaluateProperty_eq_some_iff.2 ⟨1, hrun⟩, hvalue, hvalid⟩

/-- A property whose bounds are the ends of both machine ranges; the upper one is left out. -/
def spanning : Graph where
  properties := #[{
    name := "n"
    identifier := "n"
    required := false
    validators := (Validators.empty.addCheck (.minimum (.integer (-9223372036854775808)) false)).addCheck
      (.maximum (.integer 18446744073709551615) true) }]

/-- The least integer beyond the signed range is accepted, and the greatest one of the unsigned range is not. -/
theorem bounds_exact_spanning :
    (∃ outcome, spanning.evaluateProperty .collectAll ⟨0⟩ (some (.number (.integer 9223372036854775808))) = some outcome ∧
      outcome.isValid = true) ∧
    ∃ outcome, spanning.evaluateProperty .failFast ⟨0⟩ (some (.number (.integer 18446744073709551615))) = some outcome ∧
      outcome.isValid = false := by
  have hlist : (spanning.property ⟨0⟩).validators.toList =
      [Check.toValidator (.minimum (.integer (-9223372036854775808)) false),
        Check.toValidator (.maximum (.integer 18446744073709551615) true)] := rfl
  have hbounds : ∀ v ∈ (spanning.property ⟨0⟩).validators.toList, v.check.interval?.isSome = true := by
    rw [hlist]
    exact List.forall_mem_cons.2 ⟨rfl, List.forall_mem_singleton.2 rfl⟩
  obtain ⟨inside, hinside, -, hvalid⟩ := bounds_exact.2.2.2 spanning .collectAll ⟨0⟩ 9223372036854775808 hbounds
  obtain ⟨outside, houtside, -, hinvalid⟩ := bounds_exact.2.2.2 spanning .failFast ⟨0⟩ 18446744073709551615 hbounds
  rw [hlist] at hvalid hinvalid
  refine ⟨⟨inside, hinside, hvalid.2 ?_⟩, outside, houtside, Bool.eq_false_iff.2 fun h => ?_⟩
  · simp [Check.interval?, Check.toValidator]
  · have hbelow := hinvalid.1 h _ (List.mem_cons_of_mem _ List.mem_cons_self) _ rfl
    exact absurd hbelow (by simp)

end Graph
end SchemaTypes
