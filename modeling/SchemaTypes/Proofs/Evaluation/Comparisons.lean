import SchemaTypes.Proofs.Evaluation.GivenValue
import SchemaTypes.Proofs.Json.Equality
/-!
# Checks that compare values

An enumeration, a constant and the distinctness of items compare by value.  If one spelling of a value is to be judged as
any other, equality has to be an equivalence.  It is one as far as rounding to doubles tells integers apart, and there
these checks do not see which of several equal values they are given (`Json.equal_laws`).

Where two integers are rounded to the same double, equality is not transitive (`Json.not_forall_equal_trans`), and the
answer depends on the spelling: the double equals both integers, and the integers differ.
-/
namespace SchemaTypes

/-- What a check compares a value with; the items of an array are compared with each other. -/
def Check.compared? : Check → Option (List Json)
  | .enumeration values _ => some values
  | .constant value => some [value]
  | .uniqueItems => some []
  | _ => none

namespace Evaluation

variable {judge : Judge} {mode : Mode} {check : Check} {values : List Json} {v w : Json} {within : Int → Prop}

theorem settlesNull_of_equal (check : Check) (h : v.equal w = true) : settlesNull check v = settlesNull check w := by
  by_cases hv : v = .null
  · subst hv
    rw [Json.equalBy_null.1 h]
  · have hw : w ≠ .null := by
      rintro rfl
      cases v <;> first | exact hv rfl | cases h
    rw [settlesNull_of_ne_null check hv, settlesNull_of_ne_null check hw]

theorem inspect_of_equal (happart : Number.ToldApart within) (hv : v.Comparable within) (hw : w.Comparable within)
    (h : v.equal w = true) (hcheck : check.compared? = some values) (hvalues : ∀ e ∈ values, e.Comparable within) :
    inspect judge mode check v = inspect judge mode check w := by
  have hsame : ∀ e ∈ values, e.equal v = e.equal w := fun e he =>
    Json.equal_congr_right happart hv hw (hvalues e he) h
  unfold inspect
  rw [settlesNull_of_equal check h]
  cases check with
  | enumeration found implicitNull =>
    obtain rfl := Option.some.inj hcheck
    have hany : found.any (·.equal v) = found.any (·.equal w) := by
      rw [Bool.eq_iff_iff, List.any_eq_true, List.any_eq_true]
      exact exists_congr fun e => and_congr_right fun he => by rw [hsame e he]
    simp only [hany]
  | constant found =>
    obtain rfl := Option.some.inj hcheck
    simp only [hsame found List.mem_cons_self]
  | uniqueItems =>
    cases v with
    | array items =>
      obtain ⟨others, rfl, -⟩ := Json.equalBy_array.1 h
      simp only [inspectArray, Json.allDistinct_congr happart hv hw h]
    | _ => cases w <;> first | rfl | cases h
  | _ => cases hcheck

end Evaluation

namespace Json

open Evaluation

/-- **The laws of equality by value.**  On values whose objects have distinct names it is reflexive and symmetric, and it
never sees the order of members.  It is transitive on values with integers of a set exactly if no two integers of the set
are rounded to the same double; then enumerations, constants and distinctness answer the same for equal values. -/
theorem equal_laws (within : Int → Prop) :
    (∀ a : Json, a.DistinctNames → a.equal a = true) ∧
    (∀ a b : Json, a.DistinctNames → b.DistinctNames → a.equal b = b.equal a) ∧
    (∀ a b : Json, a.Reordered b → ∀ x : Json, a.equal x = b.equal x ∧ x.equal a = x.equal b) ∧
    ((∀ a b c : Json, a.IntegersIn within → b.IntegersIn within → c.IntegersIn within →
      a.equal b = true → b.equal c = true → a.equal c = true) ↔ Number.ToldApart within) ∧
    (Number.ToldApart within → ∀ v w : Json, v.Comparable within → w.Comparable within → v.equal w = true →
      ∀ check values, check.compared? = some values → (∀ e ∈ values, e.Comparable within) →
        ∀ judge mode, inspect judge mode check v = inspect judge mode check w) := by
  refine ⟨fun a ha => equalBy_refl Number.equal_refl ha, fun a b ha hb => equal_symm ha hb,
    fun a b h x => equalBy_reordered h x, ⟨toldApart_of_trans, fun happart a b c ha _ hc h h' => ?_⟩, ?_⟩
  · exact equal_trans happart ha hc h h'
  · intro happart v w hv hw h check values hcheck hvalues judge mode
    exact inspect_of_equal happart hv hw h hcheck hvalues

/-- Two spellings of one object. -/
def spelled (first second : Number) : Json := .object [("a", .number first), ("b", .array [.number second])]

theorem comparable_spelled {first second : Number} {within : Int → Prop} (hfirst : first.IsIn within)
    (hsecond : second.IsIn within) : (spelled first second).Comparable within where
  names := .object (by simp [Members.names]) (by simpa using ⟨.number _, .array (by simpa using .number _)⟩)
  integers := .object (by simpa using ⟨.number hfirst, .array (by simpa using .number hsecond)⟩)

/-- A constant is the same in either spelling. -/
theorem equal_laws_spelled :
    (spelled (.integer 1) (.float (.ofInt 2))).equal (spelled (.float (.ofInt 1)) (.integer 2)) = true ∧
      inspect (fun _ _ => none) .collectAll (.constant (spelled (.integer 1) (.integer 2)))
          (spelled (.integer 1) (.float (.ofInt 2))) =
        inspect (fun _ _ => none) .collectAll (.constant (spelled (.integer 1) (.integer 2)))
          (spelled (.float (.ofInt 1)) (.integer 2)) := by
  have hequal : (spelled (.integer 1) (.float (.ofInt 2))).equal (spelled (.float (.ofInt 1)) (.integer 2)) = true := by
    decide +kernel
  have hone : (Number.integer 1).IsIn fun i => i.natAbs ≤ 2 ^ 53 := fun i hi => Number.integer.inj hi ▸ by decide
  have htwo : (Number.integer 2).IsIn fun i => i.natAbs ≤ 2 ^ 53 := fun i hi => Number.integer.inj hi ▸ by decide
  have hfloat : ∀ x : Binary64, (Number.float x).IsIn fun i => i.natAbs ≤ 2 ^ 53 := fun _ _ hi => nomatch hi
  refine ⟨hequal, (equal_laws _).2.2.2.2 Number.toldApart_of_le _ _ (comparable_spelled hone (hfloat _))
    (comparable_spelled (hfloat _) htwo) hequal _ _ rfl (fun e he => ?_) _ _⟩
  obtain rfl := List.mem_singleton.1 he
  exact comparable_spelled hone htwo

end Json

/-- **Equality by value is not transitive**: `2^53` is a double, which `2^53 + 1` is rounded to. -/
theorem Json.not_forall_equal_trans : ¬ ∀ a b c : Json, a.EveryNumber Number.IsLiteral →
    b.EveryNumber Number.IsLiteral → c.EveryNumber Number.IsLiteral →
    a.equal b = true → b.equal c = true → a.equal c = true := by
  intro h
  have hfacts : (Number.integer 9007199254740992).equal (.float (.ofInt 9007199254740992)) = true ∧
      (Number.float (.ofInt 9007199254740992)).equal (.integer 9007199254740993) = true ∧
      (Number.integer 9007199254740992).equal (.integer 9007199254740993) = false ∧
      (Binary64.ofInt 9007199254740992).magnitude < Binary64.overflow ∧
      roundSignificant (Binary64.ofInt 9007199254740992).magnitude 1 = (Binary64.ofInt 9007199254740992).magnitude := by
    decide +kernel
  obtain ⟨hfirst, hsecond, hdiffer, hfinite, hdouble⟩ := hfacts
  have hequal := h (.number (.integer 9007199254740992)) (.number (.float (.ofInt 9007199254740992)))
    (.number (.integer 9007199254740993)) (.number ⟨by decide, by decide⟩) (.number ⟨hfinite, hdouble⟩)
    (.number ⟨by decide, by decide⟩) hfirst hsecond
  exact nomatch hdiffer.symm.trans hequal

end SchemaTypes
