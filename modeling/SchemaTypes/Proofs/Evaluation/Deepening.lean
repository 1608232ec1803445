import SchemaTypes.Evaluation.Basic
/-!
# Evaluating under growing bounds

Evaluation tries bound after bound, so what it answers is what some bound brings (`Evaluation.exists_of_deepen`), and
it answers if all bounds from some one on do (`Evaluation.exists_deepen`).  Where a larger bound changes no answer, any
bound that brings one decides (`Evaluation.deepen_eq_some`).
-/
namespace SchemaTypes.Evaluation

variable {α β : Type} {attempt : Nat → Option α} {other : Nat → Option β} {result : α}

theorem deepen_of_some {bound : Nat} (h : attempt bound = some result) : deepen attempt bound = some result := by
  rw [deepen, h]
  rfl

theorem deepen_of_none {bound : Nat} (h : attempt bound = none) :
    deepen attempt bound = deepen attempt (2 * bound + 1) := by
  rw [deepen, h]
  rfl

/-- What holds of the answers under every bound, and is passed on from a larger bound, holds of the answer. -/
theorem deepen_induction {P : Nat → α → Prop} (hfound : ∀ bound a, attempt bound = some a → P bound a)
    (hlater : ∀ bound a, attempt bound = none → P (2 * bound + 1) a → P bound a) {start : Nat}
    (h : deepen attempt start = some result) : P start result := by
  refine deepen.partial_correctness attempt P (fun rest hrest bound a ha => ?_) start result h
  cases hattempt : attempt bound with
  | some found =>
    rw [hattempt] at ha
    exact hfound bound a (hattempt.trans ha)
  | none =>
    rw [hattempt] at ha
    exact hlater bound a hattempt (hrest _ _ ha)

/-- What is answered in the end has been answered under some bound. -/
theorem exists_of_deepen {start : Nat} (h : deepen attempt start = some result) :
    ∃ bound, attempt bound = some result :=
  deepen_induction (P := fun _ result => ∃ bound, attempt bound = some result) (fun bound _ ha => ⟨bound, ha⟩)
    (fun _ _ _ hlater => hlater) h

/-- By induction on how far the bound still has to grow. -/
theorem exists_deepen {enough : Nat} (h : ∀ bound, enough ≤ bound → attempt bound ≠ none) (start : Nat) :
    ∃ result, deepen attempt start = some result := by
  induction hgap : enough - start using Nat.strongRecOn generalizing start with
  | _ gap ih =>
    cases hattempt : attempt start with
    | some result => exact ⟨result, deepen_of_some hattempt⟩
    | none =>
      have hless : start < enough := Nat.lt_of_not_le fun hle => h start hle hattempt
      rw [deepen_of_none hattempt]
      exact ih (enough - (2 * start + 1)) (by omega) _ rfl

/-- Where a larger bound changes no answer, the answer under any bound is the answer. -/
theorem deepen_eq_some (hgrows : ∀ bound larger a, bound ≤ larger → attempt bound = some a → attempt larger = some a)
    {bound : Nat} (h : attempt bound = some result) (start : Nat) : deepen attempt start = some result := by
  obtain ⟨found, hfound⟩ := exists_deepen (fun larger hle hnone => nomatch hnone.symm.trans (hgrows _ _ _ hle h)) start
  obtain ⟨larger, hlarger⟩ := exists_of_deepen hfound
  rcases Nat.le_total bound larger with hle | hle
  · rw [hfound, ← hlarger, hgrows bound larger result hle h]
  · rw [hfound, ← h, hgrows larger bound found hle hlarger]

/-- What one attempt ends with, the other ends with, too, if they end under the same bounds. -/
theorem deepen_forward {r : α → β → Prop} (hnone : ∀ bound, attempt bound = none → other bound = none)
    (hsome : ∀ bound a, attempt bound = some a → ∃ b, other bound = some b ∧ r a b) {start : Nat}
    (h : deepen attempt start = some result) : ∃ b, deepen other start = some b ∧ r result b := by
  refine deepen_induction (P := fun start a => ∃ b, deepen other start = some b ∧ r a b) (fun bound a ha => ?_)
    (fun bound a ha hlater => ?_) h
  · obtain ⟨b, hb, hrelated⟩ := hsome bound a ha
    exact ⟨b, deepen_of_some hb, hrelated⟩
  · rw [deepen_of_none (hnone bound ha)]
    exact hlater

/-- Attempts that agree under every bound agree in the end. -/
theorem deepen_rel {r : α → β → Prop} (h : ∀ bound, Option.Rel r (attempt bound) (other bound)) (start : Nat) :
    Option.Rel r (deepen attempt start) (deepen other start) := by
  have hleft : ∀ bound a, attempt bound = some a → ∃ b, other bound = some b ∧ r a b := by
    intro bound a ha
    have hbound := ha ▸ h bound
    cases hother : other bound <;> rw [hother] at hbound <;> cases hbound
    exact ⟨_, rfl, ‹r a _›⟩
  have hright : ∀ bound b, other bound = some b → ∃ a, attempt bound = some a ∧ r a b := by
    intro bound b hb
    have hbound := hb ▸ h bound
    cases hattempt : attempt bound <;> rw [hattempt] at hbound <;> cases hbound
    exact ⟨_, rfl, ‹r _ b›⟩
  have hforward : ∀ a, deepen attempt start = some a → ∃ b, deepen other start = some b ∧ r a b := fun a =>
    deepen_forward (fun bound hnone => Option.eq_none_iff_forall_ne_some.2 fun b hb =>
      nomatch hnone.symm.trans (hright bound b hb).choose_spec.1) hleft
  have hbackward : ∀ b, deepen other start = some b → ∃ a, deepen attempt start = some a ∧ r a b := fun b =>
    deepen_forward (fun bound hnone => Option.eq_none_iff_forall_ne_some.2 fun a ha =>
      nomatch hnone.symm.trans (hleft bound a ha).choose_spec.1) hright
  cases ha : deepen attempt start with
  | some a =>
    obtain ⟨b, hb, hrelated⟩ := hforward a ha
    rw [hb]
    exact .some hrelated
  | none =>
    cases hb : deepen other start with
    | none => exact .none
    | some b => cases ha.symm.trans (hbackward b hb).choose_spec.1

end SchemaTypes.Evaluation
