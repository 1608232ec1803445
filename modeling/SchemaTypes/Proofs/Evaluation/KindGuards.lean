import SchemaTypes.Proofs.Check.Families
import SchemaTypes.Proofs.Evaluation.GivenValue
/-!
# Checks are silent on other kinds

A check of another shape than the value's passes the value on as it is (`Evaluation.transform_of_other`).  So of a list of
checks only those that fit the value's shape matter (`Evaluation.admits_fitting_iff`), and the type check in front of them
asks for one of its kinds and no more (`Evaluation.admits_typed_iff`).
-/
namespace SchemaTypes

/-- The check is not one of another shape. -/
def Check.fits (shape : Kind) (check : Check) : Bool := check.shape?.all (· = shape)

theorem Json.Outlines.ofValue_eq {a b : Json} (h : a.Outlines b) : Kind.ofValue a = Kind.ofValue b := by
  cases h <;> rfl

namespace Evaluation

variable {graph : Graph} {mode : Mode} {judge : Judge} {name : String} {check : Check} {checks : List Check}
  {kind shape : Kind} {kinds : List Kind} {value found : Json}

theorem shape_number (n : Number) : (Kind.ofValue (.number n)).shape = .number := by
  cases n <;> rfl

/-- **A check of another shape** passes the value on as it is. -/
theorem transform_of_other (h : check.shape? = some shape) (hother : (Kind.ofValue value).shape ≠ shape) :
    transform graph mode judge check value = some (.pass, value) := by
  cases check <;> first
    | (cases h; done)
    | (cases h; cases value <;> first | rfl | exact absurd rfl hother | exact absurd (shape_number _) hother)

/-! ## Checks in a row -/

/-- These checks, one after the other, accept the value. -/
def Admits (graph : Graph) (mode : Mode) (judge : Judge) (name : String) (checks : List Check) (value : Json) : Prop :=
  Accepted (runValidators graph mode judge name (checks.map Check.toValidator) (some value))

/-- The check is no filter, and null does not satisfy it as an absent value would. -/
structure Impartial (check : Check) : Prop where
  isFilter : check.isFilter = false
  settlesNull : ∀ value, settlesNull check value = false

theorem impartial_of_shape (h : check.shape? = some shape) : Impartial check := by
  cases check <;> first | exact ⟨rfl, fun _ => rfl⟩ | cases h

theorem admits_cons_iff (h : Impartial check) : Admits graph mode judge name (check :: checks) value ↔
    ∃ found, transform graph mode judge check value = some (.pass, found) ∧
      Admits graph mode judge name checks found :=
  accepted_cons_iff (h.settlesNull value)

/-- **Only the checks that fit the value's shape matter.**  What a check leaves of the value has the value's shape. -/
theorem admits_fitting_iff : ∀ {checks : List Check} {value : Json}, (∀ c ∈ checks, Impartial c) →
    (Admits graph mode judge name checks value ↔
      Admits graph mode judge name (checks.filter (Check.fits (Kind.ofValue value).shape)) value)
  | [], _, _ => Iff.rfl
  | check :: rest, value, h => by
    obtain ⟨himpartial, hrest⟩ := List.forall_mem_cons.1 h
    cases hfits : check.fits (Kind.ofValue value).shape with
    | true =>
      rw [List.filter_cons_of_pos hfits, admits_cons_iff himpartial, admits_cons_iff himpartial]
      refine exists_congr fun found => and_congr_right fun hfound => ?_
      rw [← (transform_outlines himpartial.isFilter hfound).ofValue_eq]
      exact admits_fitting_iff hrest
    | false =>
      obtain ⟨shape, hshape, hother⟩ : ∃ shape, check.shape? = some shape ∧ (Kind.ofValue value).shape ≠ shape := by
        unfold Check.fits at hfits
        cases hshape : check.shape? with
        | none =>
          rw [hshape] at hfits
          cases hfits
        | some shape =>
          rw [hshape] at hfits
          exact ⟨shape, rfl, fun heq => of_decide_eq_false hfits heq.symm⟩
      rw [List.filter_cons_of_neg (Bool.eq_false_iff.1 hfits), admits_cons_iff himpartial, transform_of_other hshape hother]
      simp only [Option.some.injEq, Prod.mk.injEq, true_and, exists_eq_left']
      exact admits_fitting_iff hrest

/-- The type check, with null on no other footing than any value, passes values of its kinds and leaves them alone. -/
theorem transform_type_pass_iff :
    transform graph mode judge (.type kinds false) value = some (.pass, found) ↔
      (∃ kind ∈ kinds, kind.accepts value = true) ∧ value = found := by
  have hinspect : inspect judge mode (.type kinds false) value = if kinds.any (·.accepts value) then some .pass
      else some (.failWith "actual" (.string (Kind.ofValue value).keyword)) := rfl
  rw [transform_shallow graph rfl, hinspect, ← List.any_eq_true]
  split
  · rename_i hany
    rw [hany]
    simp
  · rename_i hnone
    simp [hnone, Verdict.failWith]

/-- **A value that must be there** is accepted if it is of one of the kinds and the other checks accept it. -/
theorem admits_typed_iff : Admits graph mode judge name (.required :: .type kinds false :: checks) value ↔
    (∃ kind ∈ kinds, kind.accepts value = true) ∧ Admits graph mode judge name checks value := by
  have hrequired : transform graph mode judge .required value = some (.pass, value) := by
    cases value <;> rfl
  rw [admits_cons_iff ⟨rfl, fun _ => rfl⟩, hrequired]
  simp only [Option.some.injEq, Prod.mk.injEq, true_and, exists_eq_left']
  rw [admits_cons_iff ⟨rfl, fun _ => rfl⟩]
  simp only [transform_type_pass_iff, and_assoc, exists_and_left, exists_eq_left']

end Evaluation
end SchemaTypes
