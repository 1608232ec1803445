import Mathlib.Tactic.Linarith
import SchemaTypes.Proofs.Json.Equality
/-!
# Multiples among integers

Whether an integer divides another is decided exactly if both are in the signed range, and for a divisor of zero.  Else
both are rounded to doubles, and so is their quotient, which then has to be near an integer.  The three roundings are
each off by at most one part in `2^53` (`Close`), and that is all that is used of them here.

So a multiple by a factor of up to three million is always found, and what is taken for a multiple is none by at most a
billionth of the divisor and `2^13` (`Number.isMultipleOf_integer`).  The latter is much for small divisors: a quotient
of `2^52` or more has no fraction left, so all that is beyond the signed range is a multiple of every divisor up to
`2^10` (`Number.not_forall_isMultipleOf`).
-/
namespace SchemaTypes

/-! ## Rounding -/

/-- A number is off by at most one part in `2^53`. -/
structure Close (exact rounded : Nat) : Prop where
  above : 2 ^ 53 * rounded ≤ 2 ^ 53 * exact + exact
  below : 2 ^ 53 * exact ≤ 2 ^ 53 * rounded + exact

namespace Close

variable {m n k : Nat}

theorem refl (n : Nat) : Close n n := ⟨Nat.le_add_right _ _, Nat.le_add_right _ _⟩

theorem mul_left (h : Close n m) (k : Nat) : Close (k * n) (k * m) := by
  obtain ⟨habove, hbelow⟩ := h
  refine ⟨?_, ?_⟩
  · calc 2 ^ 53 * (k * m) = k * (2 ^ 53 * m) := Nat.mul_left_comm _ _ _
      _ ≤ k * (2 ^ 53 * n + n) := Nat.mul_le_mul_left k habove
      _ = 2 ^ 53 * (k * n) + k * n := by rw [Nat.mul_add, Nat.mul_left_comm]
  · calc 2 ^ 53 * (k * n) = k * (2 ^ 53 * n) := Nat.mul_left_comm _ _ _
      _ ≤ k * (2 ^ 53 * m + n) := Nat.mul_le_mul_left k hbelow
      _ = 2 ^ 53 * (k * m) + k * n := by rw [Nat.mul_add, Nat.mul_left_comm]

/-- What is rounded in units is rounded. -/
theorem of_mul_right (hk : 0 < k) (h : Close (n * k) (m * k)) : Close n m := by
  obtain ⟨habove, hbelow⟩ := h
  rw [← Nat.mul_assoc, ← Nat.mul_assoc, ← Nat.add_mul] at habove hbelow
  exact ⟨Nat.le_of_mul_le_mul_right habove hk, Nat.le_of_mul_le_mul_right hbelow hk⟩

theorem pos (h : Close n m) (hn : 0 < n) : 0 < m := by
  obtain ⟨-, hbelow⟩ := h
  omega

end Close

/-- Rounding to an integer is off by at most a half. -/
theorem roundHalfEven_error {n d : Nat} (hd : 0 < d) :
    2 * (roundHalfEven n d * d) ≤ 2 * n + d ∧ 2 * n ≤ 2 * (roundHalfEven n d * d) + d := by
  have hdivision := Nat.div_add_mod n d
  have hrest := Nat.mod_lt n hd
  rw [Nat.mul_comm] at hdivision
  unfold roundHalfEven
  simp only
  split
  · omega
  · split
    · rw [Nat.add_mul, Nat.one_mul]
      omega
    · split
      · omega
      · rw [Nat.add_mul, Nat.one_mul]
        omega

/-- **Rounding to 53 bits** is off by at most one part in `2^53`, where 53 bits are all before the point. -/
theorem close_roundSignificant {n d : Nat} (hd : 0 < d) (h : 2 ^ 52 * d ≤ n) : Close n (roundSignificant n d * d) := by
  have hquotient : 2 ^ 52 ≤ n / d := (Nat.le_div_iff_mul_le hd).2 h
  have hne : n / d ≠ 0 := Nat.ne_of_gt (Nat.lt_of_lt_of_le (Nat.two_pow_pos _) hquotient)
  have hlog : 52 ≤ (n / d).log2 := (Nat.le_log2 hne).2 hquotient
  have hpow : 2 ^ 52 * 2 ^ ((n / d).log2 - 52) ≤ n / d := by
    rw [← Nat.pow_add, Nat.add_sub_cancel' hlog]
    exact Nat.log2_self_le hne
  have hunit : 2 ^ 52 * (d * 2 ^ ((n / d).log2 - 52)) ≤ n := by
    rw [Nat.mul_left_comm, Nat.mul_comm]
    exact (Nat.le_div_iff_mul_le hd).1 hpow
  have herror := roundHalfEven_error (n := n) (Nat.mul_pos hd (Nat.two_pow_pos ((n / d).log2 - 52)))
  have hrounded : roundSignificant n d * d =
      roundHalfEven n (d * 2 ^ ((n / d).log2 - 52)) * (d * 2 ^ ((n / d).log2 - 52)) := by
    unfold roundSignificant
    simp only [Nat.pow_eq]
    rw [Nat.mul_assoc, Nat.mul_comm (2 ^ _) d]
  rw [hrounded]
  obtain ⟨habove, hbelow⟩ := herror
  exact ⟨by omega, by omega⟩

/-- What is rounded to 53 bits counts in units if it has 53 bits of them. -/
theorem dvd_roundSignificant {n d e : Nat} (hd : 0 < d) (h : 2 ^ 52 * (d * 2 ^ e) ≤ n) :
    2 ^ e ∣ roundSignificant n d := by
  have hquotient : 2 ^ (52 + e) ≤ n / d := by
    refine (Nat.le_div_iff_mul_le hd).2 ?_
    rw [Nat.pow_add, Nat.mul_assoc, Nat.mul_comm (2 ^ e) d]
    exact h
  have hne : n / d ≠ 0 := Nat.ne_of_gt (Nat.lt_of_lt_of_le (Nat.two_pow_pos _) hquotient)
  have hlog : 52 + e ≤ (n / d).log2 := (Nat.le_log2 hne).2 hquotient
  unfold roundSignificant
  simp only [Nat.pow_eq]
  exact Nat.dvd_mul_left_of_dvd (Nat.pow_dvd_pow 2 (by omega)) _

theorem roundSignificant_zero {d : Nat} (hd : 0 < d) : roundSignificant 0 d = 0 := by
  have hzero : ∀ e, roundHalfEven 0 (d * Nat.pow 2 e) = 0 := fun e =>
    (Number.roundHalfEven_of_dvd (Nat.mul_pos hd (Nat.two_pow_pos e)) (Nat.dvd_zero _)).trans (Nat.zero_div _)
  unfold roundSignificant
  simp only [hzero, Nat.zero_mul]

namespace Binary64

theorem pow_le_one {e : Nat} (h : e ≤ 1000) : 2 ^ e ≤ one := by
  obtain ⟨exponent, hexponent, hone⟩ : ∃ exponent, 1000 ≤ exponent ∧ one = Nat.pow 2 exponent := by
    refine ⟨1074, by decide, ?_⟩
    delta one
    with_reducible rfl
  rw [hone]
  exact Nat.pow_le_pow_right (Nat.le_succ 1) (Nat.le_trans h hexponent)

/-- Whatever fits into 64 bits or a little more is no infinite double. -/
theorem mul_one_lt_overflow {n e : Nat} (he : e ≤ 1000) (h : n < 2 ^ e) : n * one < overflow := by
  obtain ⟨exponent, bound, hbound, hone, hoverflow⟩ :
      ∃ exponent bound, 1000 + exponent ≤ bound ∧ one = Nat.pow 2 exponent ∧ overflow = Nat.pow 2 bound := by
    refine ⟨1074, 2098, by decide, ?_, ?_⟩
    · delta one
      with_reducible rfl
    · delta overflow
      with_reducible rfl
  rw [hone, hoverflow, Nat.pow_eq, Nat.pow_eq]
  calc n * 2 ^ exponent < 2 ^ e * 2 ^ exponent := Nat.mul_lt_mul_of_pos_right h (Nat.two_pow_pos _)
    _ = 2 ^ (e + exponent) := (Nat.pow_add 2 e exponent).symm
    _ ≤ 2 ^ bound := Nat.pow_le_pow_right (Nat.le_succ 1) (by omega)

theorem one_pos : 0 < one := Nat.lt_of_lt_of_le (Nat.two_pow_pos 0) (pow_le_one (Nat.zero_le _))

/-- **An integer as a double** is an integer, up to `2^53` the same one. -/
theorem exists_magnitude (n : Nat) :
    ∃ m, roundSignificant (n * one) 1 = m * one ∧ Close n m ∧ (n ≤ 2 ^ 53 → m = n) := by
  obtain ⟨e, he⟩ := Number.one_eq
  by_cases hle : n ≤ 2 ^ 53
  · rw [he]
    exact ⟨n, Number.roundSignificant_of_le hle e, .refl n, fun _ => rfl⟩
  · have hlarge : 2 ^ 52 * one ≤ n * one := Nat.mul_le_mul_right _ (by omega)
    obtain ⟨m, hm⟩ : one ∣ roundSignificant (n * one) 1 := by
      rw [he] at hlarge ⊢
      refine dvd_roundSignificant Nat.one_pos ?_
      rw [Nat.one_mul]
      exact hlarge
    have hdigits : 2 ^ 52 * 1 ≤ n * one := Nat.le_trans (Nat.mul_le_mul_left _ one_pos) hlarge
    have hclose := close_roundSignificant Nat.one_pos hdigits
    rw [Nat.mul_one, hm, Nat.mul_comm one] at hclose
    exact ⟨m, hm.trans (Nat.mul_comm _ _), hclose.of_mul_right one_pos, fun h => absurd h hle⟩

/-- A magnitude is near an integer if it is near some multiple of one. -/
theorem min_lt_iff {unit magnitude bound : Nat} (hunit : 0 < unit) :
    min (magnitude % unit) (unit - magnitude % unit) < bound ↔
      ∃ k, magnitude < k * unit + bound ∧ k * unit < magnitude + bound := by
  have hdivision := Nat.div_add_mod' magnitude unit
  have hrest := Nat.mod_lt magnitude hunit
  constructor
  · intro hmin
    rcases Nat.lt_or_ge (magnitude % unit) bound with hlow | hhigh
    · exact ⟨magnitude / unit, by omega, by omega⟩
    · refine ⟨magnitude / unit + 1, ?_, ?_⟩
      all_goals
        rw [Nat.add_mul, Nat.one_mul]
        omega
  · rintro ⟨k, habove, hbelow⟩
    rcases Nat.lt_or_ge (magnitude / unit) k with hlt | hle
    · have hnext := Nat.mul_le_mul_right unit (Nat.succ_le_of_lt hlt)
      rw [Nat.succ_mul] at hnext
      omega
    · have hprevious := Nat.mul_le_mul_right unit hle
      omega

theorem isNearInteger_iff {x bound : Binary64} : x.isNearInteger bound = true ↔
    ∃ k, x.magnitude < k * one + bound.magnitude ∧ k * one < x.magnitude + bound.magnitude := by
  have hone := one_pos
  unfold isNearInteger
  generalize one = unit at hone ⊢
  exact decide_eq_true_iff.trans (min_lt_iff hone)

end Binary64

/-! ## The quotient of two rounded numbers -/

/-- Two numbers and their doubles, in units of one the quotient of these, and the tolerance in such units. -/
structure Division (v d v' d' one quotient tolerance : Nat) : Prop where
  one_pos : 0 < one
  value : Close v v'
  divisor : Close d d'
  quotient : Close (v' * one) (quotient * d')
  tolerance : Close one (tolerance * 10 ^ 9)

namespace Division

variable {v d v' d' one quotient tolerance k : Nat}

/-- Multiplied with the divisor's double, what is near the quotient is near the value's double. -/
theorem near_value (h : Division v d v' d' one quotient tolerance) (habove : quotient < k * one + tolerance)
    (hbelow : k * one < quotient + tolerance) :
    2 ^ 53 * 10 ^ 9 * v' ≤ 2 ^ 53 * 10 ^ 9 * (k * d') + (2 ^ 53 + 1) * d' + 10 ^ 9 * v' ∧
      2 ^ 53 * 10 ^ 9 * (k * d') ≤ 2 ^ 53 * 10 ^ 9 * v' + (2 ^ 53 + 1) * d' + 10 ^ 9 * v' := by
  obtain ⟨hone, -, -, ⟨hquotient, hquotient'⟩, ⟨htolerance, -⟩⟩ := h
  have hbound := Nat.mul_le_mul_right d' htolerance
  have hlow := Nat.mul_le_mul_right d' (Nat.le_of_lt habove)
  have hhigh := Nat.mul_le_mul_right d' (Nat.le_of_lt hbelow)
  refine ⟨Nat.le_of_mul_le_mul_right ?_ hone, Nat.le_of_mul_le_mul_right ?_ hone⟩
  · linarith
  · linarith

/-- **What is accepted** is a multiple but for a billionth of the divisor and `2^13`. -/
theorem near_multiple (h : Division v d v' d' one quotient tolerance) (hv : v < 2 ^ 64) (hd : d < 2 ^ 64)
    (habove : quotient < k * one + tolerance) (hbelow : k * one < quotient + tolerance) :
    10 ^ 9 * v ≤ 10 ^ 9 * (k * d) + d + 10 ^ 9 * 2 ^ 13 ∧ 10 ^ 9 * (k * d) ≤ 10 ^ 9 * v + d + 10 ^ 9 * 2 ^ 13 := by
  obtain ⟨hnear, hnear'⟩ := h.near_value habove hbelow
  obtain ⟨hvalue, hvalue'⟩ := h.value
  obtain ⟨hdivisor, hdivisor'⟩ := h.divisor
  obtain ⟨hmultiple, hmultiple'⟩ := h.divisor.mul_left k
  generalize k * d = multiple at *
  generalize k * d' = multiple' at *
  exact ⟨by omega, by omega⟩

/-- **A multiple by a factor up to three million** is accepted. -/
theorem accepts (h : Division (k * d) d v' d' one quotient tolerance) (hd : 0 < d) (hk : k ≤ 3000000) :
    quotient < k * one + tolerance ∧ k * one < quotient + tolerance := by
  obtain ⟨hmultiple, hmultiple'⟩ := h.divisor.mul_left k
  obtain ⟨hone, ⟨hvalue, hvalue'⟩, ⟨hdivisor, hdivisor'⟩, ⟨hquotient, hquotient'⟩, ⟨-, htolerance⟩⟩ := h
  have hfactor : k * d ≤ 3000000 * d := Nat.mul_le_mul_right d hk
  have hbound := Nat.mul_le_mul_right d' htolerance
  constructor
  · refine Nat.lt_of_not_le fun hle => ?_
    have hlow := Nat.mul_le_mul_right d' hle
    have hcancelled : 2 ^ 53 * 10 ^ 9 * (k * d') + 2 ^ 53 * d' ≤ 2 ^ 53 * 10 ^ 9 * v' + 10 ^ 9 * v' + d' := by
      refine Nat.le_of_mul_le_mul_right ?_ hone
      linarith
    generalize k * d = multiple at *
    generalize k * d' = multiple' at *
    omega
  · refine Nat.lt_of_not_le fun hle => ?_
    have hhigh := Nat.mul_le_mul_right d' hle
    have hcancelled : 2 ^ 53 * 10 ^ 9 * v' + 2 ^ 53 * d' ≤ 2 ^ 53 * 10 ^ 9 * (k * d') + 10 ^ 9 * v' + d' := by
      refine Nat.le_of_mul_le_mul_right ?_ hone
      linarith
    generalize k * d = multiple at *
    generalize k * d' = multiple' at *
    omega

end Division

namespace Number

variable {value divisor : Int}

/-- What is asked of multiples: a divisor of zero divides zero only. -/
def IsMultiple (value divisor : Int) : Prop := divisor ≠ 0 ∧ divisor ∣ value ∨ divisor = 0 ∧ value = 0

theorem isMultiple_iff : IsMultiple value divisor ↔ divisor ∣ value := by
  unfold IsMultiple
  by_cases hzero : divisor = 0
  · simp [hzero]
  · simp [hzero]

/-! ## Integers in the signed range -/

theorem isMultipleOf_signed (hvalue : inSignedRange value = true)
    (hdivisor : inSignedRange divisor = true) :
    isMultipleOf (.integer value) (.integer divisor) = true ↔ IsMultiple value divisor := by
  simp only [isMultipleOf, hvalue, hdivisor, Bool.and_self, if_true, beq_iff_eq]
  rw [isMultiple_iff, Int.dvd_iff_tmod_eq_zero]

/-! ## Integers as doubles -/

theorem close_tolerance : Close Binary64.one (multipleTolerance.magnitude * 10 ^ 9) := by
  have hround : ∀ {unit}, 2 ^ 52 * Nat.pow 10 9 ≤ unit →
      Close unit (roundSignificant unit (Nat.pow 10 9) * 10 ^ 9) := close_roundSignificant (by decide)
  have hmagnitude : multipleTolerance.magnitude = roundSignificant Binary64.one (Nat.pow 10 9) := by
    delta multipleTolerance
    with_reducible rfl
  rw [hmagnitude]
  exact hround (Nat.le_trans (by decide : 2 ^ 52 * Nat.pow 10 9 ≤ 2 ^ 90) (Binary64.pow_le_one (by decide)))

/-- The quotient's double is what its magnitude is rounded to, if that is no infinite one. -/
theorem exists_div {v' d' quotient : Nat} (hv' : roundSignificant (value.natAbs * Binary64.one) 1 = v' * Binary64.one)
    (hd' : roundSignificant (divisor.natAbs * Binary64.one) 1 = d' * Binary64.one)
    (hquotient : quotient = roundSignificant (v' * Binary64.one * Binary64.one) (d' * Binary64.one))
    (hfinite : quotient < Binary64.overflow) :
    ∃ negative, (Binary64.ofInt value).div? (.ofInt divisor) = some ⟨negative, quotient⟩ := by
  unfold Binary64.div? Binary64.ofRatio? Binary64.ofInt
  simp only [hv', hd', ← hquotient, if_pos hfinite, Option.some.injEq, Binary64.mk.injEq, and_true, exists_eq']

/-- **Dividing two integers as doubles** never gives too large a number, and rounds three times. -/
theorem exists_division (hvalue : value ≠ 0) (hdivisor : divisor ≠ 0)
    (hv : value.natAbs < 2 ^ 64) (hd : divisor.natAbs < 2 ^ 64) :
    ∃ v' d' quotient, (Binary64.ofInt value).div? (.ofInt divisor) = some quotient ∧
      Division value.natAbs divisor.natAbs v' d' Binary64.one quotient.magnitude multipleTolerance.magnitude ∧
      (divisor.natAbs ≤ 2 ^ 53 → d' = divisor.natAbs) ∧
      quotient.magnitude = roundSignificant (v' * Binary64.one * Binary64.one) (d' * Binary64.one) := by
  obtain ⟨v', hv', hvclose, -⟩ := Binary64.exists_magnitude value.natAbs
  obtain ⟨d', hd', hdclose, hdexact⟩ := Binary64.exists_magnitude divisor.natAbs
  have hvpos : 0 < v' := hvclose.pos (Int.natAbs_pos.2 hvalue)
  have hdpos : 0 < d' := hdclose.pos (Int.natAbs_pos.2 hdivisor)
  have hvbound : v' < 2 ^ 65 := by have := hvclose.above; omega
  have hdbound : d' < 2 ^ 65 := by have := hdclose.above; omega
  have hone := Binary64.one_pos
  have hlarge : 2 ^ 52 * (d' * Binary64.one) ≤ v' * Binary64.one * Binary64.one := by
    have hdigits : 2 ^ 52 * d' ≤ v' * Binary64.one :=
      calc 2 ^ 52 * d' ≤ 2 ^ 117 := by omega
        _ ≤ Binary64.one := Binary64.pow_le_one (by decide)
        _ ≤ v' * Binary64.one := Nat.le_mul_of_pos_left _ hvpos
    rw [← Nat.mul_assoc]
    exact Nat.mul_le_mul_right _ hdigits
  obtain ⟨quotient, hquotient⟩ : ∃ quotient, quotient =
      roundSignificant (v' * Binary64.one * Binary64.one) (d' * Binary64.one) := ⟨_, rfl⟩
  have hclose : Close (v' * Binary64.one) (quotient * d') := by
    have hrounded := close_roundSignificant (Nat.mul_pos hdpos hone) hlarge
    rw [← hquotient, ← Nat.mul_assoc quotient] at hrounded
    exact hrounded.of_mul_right hone
  have hfinite : quotient < Binary64.overflow := by
    have hbound : quotient ≤ 2 ^ 66 * Binary64.one := by
      have habove := hclose.above
      have hfactor : quotient ≤ quotient * d' := Nat.le_mul_of_pos_right _ hdpos
      have hunits : v' * Binary64.one ≤ 2 ^ 65 * Binary64.one := Nat.mul_le_mul_right _ (Nat.le_of_lt hvbound)
      omega
    exact Nat.lt_of_le_of_lt hbound (Binary64.mul_one_lt_overflow (by decide : 67 ≤ 1000) (by decide))
  obtain ⟨negative, hdiv⟩ := exists_div hv' hd' hquotient hfinite
  exact ⟨v', d', ⟨negative, quotient⟩, hdiv, ⟨hone, hvclose, hdclose, hclose, close_tolerance⟩, hdexact, hquotient⟩

theorem isZero_ofInt {i : Int} : (Binary64.ofInt i).isZero = true ↔ i = 0 := by
  obtain ⟨m, hm, hclose, hexact⟩ := Binary64.exists_magnitude i.natAbs
  unfold Binary64.isZero Binary64.ofInt
  rw [hm, beq_iff_eq, Nat.mul_eq_zero]
  constructor
  · rintro (rfl | hone)
    · by_contra hne
      exact Nat.lt_irrefl 0 (hclose.pos (Int.natAbs_pos.2 hne))
    · exact absurd hone (Nat.ne_of_gt Binary64.one_pos)
  · rintro rfl
    exact .inl (hexact (Nat.zero_le _))

theorem isFloatMultiple_zero : isFloatMultiple (.ofInt value) (.ofInt 0) = true ↔ value = 0 := by
  unfold isFloatMultiple
  rw [if_pos (isZero_ofInt.2 rfl)]
  exact isZero_ofInt

theorem isFloatMultiple_iff {quotient : Binary64} (hdivisor : divisor ≠ 0)
    (h : (Binary64.ofInt value).div? (.ofInt divisor) = some quotient) :
    isFloatMultiple (.ofInt value) (.ofInt divisor) = true ↔
      ∃ k, quotient.magnitude < k * Binary64.one + multipleTolerance.magnitude ∧
        k * Binary64.one < quotient.magnitude + multipleTolerance.magnitude := by
  unfold isFloatMultiple
  rw [if_neg fun hzero => hdivisor (isZero_ofInt.1 hzero), h]
  exact Binary64.isNearInteger_iff

/-- Beyond the signed range the doubles decide. -/
theorem isMultipleOf_of_beyond (h : ¬(inSignedRange value = true ∧ inSignedRange divisor = true)) :
    isMultipleOf (.integer value) (.integer divisor) = isFloatMultiple (.ofInt value) (.ofInt divisor) := by
  simp only [isMultipleOf, Bool.and_eq_true, if_neg h]

/-- A double's quotient that is near a multiple makes the value near one. -/
theorem exists_factor (value divisor : Int) (k : Nat) :
    ∃ factor : Int, (value - factor * divisor).natAbs = ((value.natAbs : Int) - (k * divisor.natAbs : Nat)).natAbs := by
  obtain ⟨v, rfl | rfl⟩ := Int.eq_nat_or_neg value <;> obtain ⟨d, rfl | rfl⟩ := Int.eq_nat_or_neg divisor
  · exact ⟨k, by simp⟩
  · exact ⟨-k, by simp⟩
  · refine ⟨-k, ?_⟩
    rw [← Int.natAbs_neg]
    simp [Int.add_comm, Int.sub_eq_add_neg]
  · refine ⟨k, ?_⟩
    rw [← Int.natAbs_neg]
    simp [Int.add_comm, Int.sub_eq_add_neg]

/-! ## Beyond the signed range -/

theorem exists_zero_div (hdivisor : divisor ≠ 0) :
    ∃ quotient, (Binary64.ofInt 0).div? (.ofInt divisor) = some quotient ∧ quotient.magnitude = 0 := by
  obtain ⟨d', hd', hdclose, -⟩ := Binary64.exists_magnitude divisor.natAbs
  have hdpos : 0 < d' * Binary64.one :=
    Nat.mul_pos (hdclose.pos (Int.natAbs_pos.2 hdivisor)) Binary64.one_pos
  have hfinite : 0 < Binary64.overflow := by
    have := Binary64.mul_one_lt_overflow (Nat.zero_le 1000) (by decide : 0 < 2 ^ 0)
    omega
  have hround : roundSignificant (Int.natAbs 0 * Binary64.one) 1 = 0 * Binary64.one := by
    rw [Int.natAbs_zero, Nat.zero_mul]
    exact roundSignificant_zero Nat.one_pos
  have hquotient : 0 = roundSignificant (0 * Binary64.one * Binary64.one) (d' * Binary64.one) := by
    rw [Nat.zero_mul, Nat.zero_mul, roundSignificant_zero hdpos]
  obtain ⟨negative, hdiv⟩ := exists_div hround hd' hquotient hfinite
  exact ⟨⟨negative, 0⟩, hdiv, rfl⟩

theorem isSome_div (hdivisor : divisor ≠ 0) (hv : value.natAbs < 2 ^ 64) (hd : divisor.natAbs < 2 ^ 64) :
    ((Binary64.ofInt value).div? (.ofInt divisor)).isSome = true := by
  rcases eq_or_ne value 0 with rfl | hvalue
  · obtain ⟨quotient, hdiv, -⟩ := exists_zero_div hdivisor
    exact Option.isSome_of_eq_some hdiv
  · obtain ⟨-, -, quotient, hdiv, -⟩ := exists_division hvalue hdivisor hv hd
    exact Option.isSome_of_eq_some hdiv

theorem tolerance_pos : 0 < multipleTolerance.magnitude :=
  Nat.pos_of_mul_pos_right (close_tolerance.pos Binary64.one_pos)

theorem isFloatMultiple_zero_left (hdivisor : divisor ≠ 0) : isFloatMultiple (.ofInt 0) (.ofInt divisor) = true := by
  obtain ⟨quotient, hdiv, hzero⟩ := exists_zero_div hdivisor
  have := tolerance_pos
  exact (isFloatMultiple_iff hdivisor hdiv).2 ⟨0, by omega, by omega⟩

/-- **Multiples by factors up to three million** are accepted. -/
theorem isFloatMultiple_of_dvd (hdivisor : divisor ≠ 0) (hv : value.natAbs < 2 ^ 64) (hd : divisor.natAbs < 2 ^ 64)
    (hdvd : divisor ∣ value) (hfactor : value.natAbs ≤ 3000000 * divisor.natAbs) :
    isFloatMultiple (.ofInt value) (.ofInt divisor) = true := by
  rcases eq_or_ne value 0 with rfl | hvalue
  · exact isFloatMultiple_zero_left hdivisor
  obtain ⟨v', d', quotient, hdiv, hdivision, -⟩ := exists_division hvalue hdivisor hv hd
  have hdpos := Int.natAbs_pos.2 hdivisor
  obtain ⟨factor, heq⟩ := Int.natAbs_dvd_natAbs.2 hdvd
  rw [Nat.mul_comm] at heq
  rw [heq] at hdivision hfactor
  exact (isFloatMultiple_iff hdivisor hdiv).2
    ⟨factor, hdivision.accepts hdpos (Nat.le_of_mul_le_mul_right hfactor hdpos)⟩

/-- **What is accepted** is a multiple but for a billionth of the divisor and `2^13`. -/
theorem exists_near_of_isFloatMultiple (hdivisor : divisor ≠ 0) (hv : value.natAbs < 2 ^ 64)
    (hd : divisor.natAbs < 2 ^ 64) (h : isFloatMultiple (.ofInt value) (.ofInt divisor) = true) :
    ∃ factor : Int, 10 ^ 9 * (value - factor * divisor).natAbs ≤ divisor.natAbs + 10 ^ 9 * 2 ^ 13 := by
  rcases eq_or_ne value 0 with rfl | hvalue
  · exact ⟨0, by simp⟩
  obtain ⟨v', d', quotient, hdiv, hdivision, -⟩ := exists_division hvalue hdivisor hv hd
  obtain ⟨k, habove, hbelow⟩ := (isFloatMultiple_iff hdivisor hdiv).1 h
  obtain ⟨hnear, hnear'⟩ := hdivision.near_multiple hv hd habove hbelow
  obtain ⟨factor, hdistance⟩ := exists_factor value divisor k
  refine ⟨factor, ?_⟩
  rw [hdistance]
  omega

/-- **Beyond the signed range everything is a multiple of a divisor up to `2^10`**: the quotient has no fraction left. -/
theorem isFloatMultiple_of_le (hdivisor : divisor ≠ 0) (hv : value.natAbs < 2 ^ 64) (hlarge : 2 ^ 63 ≤ value.natAbs)
    (hd : divisor.natAbs ≤ 2 ^ 10) : isFloatMultiple (.ofInt value) (.ofInt divisor) = true := by
  have hvalue : value ≠ 0 := by omega
  obtain ⟨v', d', quotient, hdiv, hdivision, hexact, hquotient⟩ := exists_division hvalue hdivisor hv (by omega)
  have hdouble := hexact (by omega)
  have hbelow := hdivision.value.below
  have hwhole : Binary64.one ∣ quotient.magnitude := by
    rw [hquotient]
    obtain ⟨e, he⟩ := one_eq
    rw [he, Nat.pow_eq]
    refine dvd_roundSignificant (Nat.mul_pos (hdouble ▸ Int.natAbs_pos.2 hdivisor) (Nat.two_pow_pos e)) ?_
    rw [← Nat.mul_assoc, ← Nat.mul_assoc]
    exact Nat.mul_le_mul_right _ (Nat.mul_le_mul_right _ (by omega))
  obtain ⟨k, hk⟩ := hwhole
  rw [Nat.mul_comm] at hk
  have := tolerance_pos
  exact (isFloatMultiple_iff hdivisor hdiv).2 ⟨k, by omega, by omega⟩

/-! ## All integers of literals -/

theorem natAbs_lt_of_isLiteral {i : Int} (h : (Number.integer i).IsLiteral) : i.natAbs < 2 ^ 64 := by
  obtain ⟨hlow, hhigh⟩ := h
  omega

/-- **Multiples among integers.**  In the signed range, and for a divisor of zero, they are told exactly.  Dividing the
doubles never gives an infinite one.  A multiple by a factor of up to three million is found, and what is found is one
but for a billionth of the divisor and `2^13`.  From `2^63` on all integers are found to be multiples of divisors up to
`2^10`. -/
theorem isMultipleOf_integer (hvalue : (Number.integer value).IsLiteral)
    (hdivisor : (Number.integer divisor).IsLiteral) :
    (inSignedRange value = true ∧ inSignedRange divisor = true ∨ divisor = 0 →
        (isMultipleOf (.integer value) (.integer divisor) = true ↔ IsMultiple value divisor)) ∧
      (divisor ≠ 0 → ((Binary64.ofInt value).div? (.ofInt divisor)).isSome = true) ∧
      (IsMultiple value divisor → value.natAbs ≤ 3000000 * divisor.natAbs →
        isMultipleOf (.integer value) (.integer divisor) = true) ∧
      (isMultipleOf (.integer value) (.integer divisor) = true →
        ∃ factor : Int, 10 ^ 9 * (value - factor * divisor).natAbs ≤ divisor.natAbs + 10 ^ 9 * 2 ^ 13) ∧
      (9223372036854775808 ≤ value → divisor ≠ 0 → divisor.natAbs ≤ 1024 →
        isMultipleOf (.integer value) (.integer divisor) = true) := by
  have hv := natAbs_lt_of_isLiteral hvalue
  have hd := natAbs_lt_of_isLiteral hdivisor
  have hexact : inSignedRange value = true ∧ inSignedRange divisor = true ∨ divisor = 0 →
      (isMultipleOf (.integer value) (.integer divisor) = true ↔ IsMultiple value divisor) := by
    intro h
    by_cases hsigned : inSignedRange value = true ∧ inSignedRange divisor = true
    · exact isMultipleOf_signed hsigned.1 hsigned.2
    · obtain rfl := h.resolve_left hsigned
      rw [isMultipleOf_of_beyond hsigned, isFloatMultiple_zero, isMultiple_iff, Int.zero_dvd]
  -- beside these, the doubles decide, and the divisor is not zero
  have hcases : (inSignedRange value = true ∧ inSignedRange divisor = true ∨ divisor = 0) ∨ divisor ≠ 0 ∧
      isMultipleOf (.integer value) (.integer divisor) = isFloatMultiple (.ofInt value) (.ofInt divisor) := by
    by_cases hsigned : inSignedRange value = true ∧ inSignedRange divisor = true
    · exact .inl (.inl hsigned)
    · by_cases hzero : divisor = 0
      · exact .inl (.inr hzero)
      · exact .inr ⟨hzero, isMultipleOf_of_beyond hsigned⟩
  refine ⟨hexact, fun hne => isSome_div hne hv hd, fun hmultiple hfactor => ?_, fun haccepted => ?_,
    fun hlarge hne hsmall => ?_⟩
  · rcases hcases with h | ⟨hne, heq⟩
    · exact (hexact h).2 hmultiple
    · rw [heq]
      exact isFloatMultiple_of_dvd hne hv hd (isMultiple_iff.1 hmultiple) hfactor
  · rcases hcases with h | ⟨hne, heq⟩
    · obtain ⟨factor, rfl⟩ := isMultiple_iff.1 ((hexact h).1 haccepted)
      exact ⟨factor, by simp [Int.mul_comm]⟩
    · exact exists_near_of_isFloatMultiple hne hv hd (heq ▸ haccepted)
  · have hbeyond : ¬(inSignedRange value = true ∧ inSignedRange divisor = true) := by
      simp [inSignedRange]
      omega
    rw [isMultipleOf_of_beyond hbeyond]
    exact isFloatMultiple_of_le hne hv (by omega) hsmall

/-- The greatest integer is three times its third, and taken for a multiple of 1024.  The least one is one of `-1`. -/
theorem isMultipleOf_integer_extremes :
    (isMultipleOf (.integer 18446744073709551615) (.integer 6148914691236517205) = true ∧
        ((Binary64.ofInt 18446744073709551615).div? (.ofInt 6148914691236517205)).isSome = true ∧
        isMultipleOf (.integer 18446744073709551615) (.integer 1024) = true) ∧
      (isMultipleOf (.integer (-9223372036854775808)) (.integer (-1)) = true ↔ IsMultiple (-9223372036854775808) (-1)) ∧
      ∃ factor : Int, 10 ^ 9 * (18446744073709551615 - factor * 1024).natAbs ≤ Int.natAbs 1024 + 10 ^ 9 * 2 ^ 13 := by
  have hgreatest : (Number.integer 18446744073709551615).IsLiteral := ⟨by decide, by decide⟩
  have hthird : (Number.integer 6148914691236517205).IsLiteral := ⟨by decide, by decide⟩
  have hsmall : (Number.integer 1024).IsLiteral := ⟨by decide, by decide⟩
  obtain ⟨-, hfinite, hfound, -⟩ := isMultipleOf_integer hgreatest hthird
  obtain ⟨-, -, -, hnear, hlarge⟩ := isMultipleOf_integer hgreatest hsmall
  have haccepted := hlarge (by decide) (by decide) (by decide)
  refine ⟨⟨hfound (isMultiple_iff.2 ⟨3, by decide⟩) (by decide), hfinite (by decide), haccepted⟩, ?_, hnear haccepted⟩
  exact (isMultipleOf_integer ⟨by decide, by decide⟩ ⟨by decide, by decide⟩).1 (.inl ⟨by decide, by decide⟩)

/-- **Multiples are not told exactly** beyond the signed range: the greatest integer is odd, and found to be even. -/
theorem not_forall_isMultipleOf : ¬ ∀ value divisor : Int, (Number.integer value).IsLiteral →
    (Number.integer divisor).IsLiteral →
    (isMultipleOf (.integer value) (.integer divisor) = true ↔ IsMultiple value divisor) := by
  intro h
  have haccepted : isMultipleOf (.integer 18446744073709551615) (.integer 2) = true := by decide +kernel
  have hmultiple := (h 18446744073709551615 2 ⟨by decide, by decide⟩ ⟨by decide, by decide⟩).1 haccepted
  exact absurd (isMultiple_iff.1 hmultiple) (by decide)

end Number

end SchemaTypes
