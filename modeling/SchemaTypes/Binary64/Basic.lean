/-!
# Finite double-precision numbers, exactly

Every finite double is a whole multiple of `2^-1074`, the least positive one, so a
double is kept as a sign and a `Nat` that counts those units.  Comparison is then
comparison of integers, and an operation is its exact rational result rounded once,
by `roundSignificant`, to the nearest magnitude of at most 53 significant bits.
Infinities are left out: an operation whose result is too large answers `none`.
-/
namespace SchemaTypes

/-- A finite double: `magnitude` counts units of `2^-1074`.  Zero has two signs. -/
structure Binary64 where
  negative : Bool
  magnitude : Nat
deriving DecidableEq, Repr

/-- The integer nearest to `n / d`; a half goes to the even neighbour. -/
def roundHalfEven (n d : Nat) : Nat :=
  let q := n / d
  let r := n % d
  if 2 * r < d then q
  else if d < 2 * r then q + 1
  else if q % 2 = 0 then q else q + 1

/-- The integer nearest to `n / d` among those of at most 53 significant bits. -/
def roundSignificant (n d : Nat) : Nat :=
  let dropped := (n / d).log2 - 52
  roundHalfEven n (d * Nat.pow 2 dropped) * Nat.pow 2 dropped

namespace Binary64

/-- How many units make one. -/
def one : Nat := Nat.pow 2 1074

/-- Every magnitude from here on is too large for a finite double. -/
def overflow : Nat := Nat.pow 2 2098

/-- The double nearest to `n / d` units, unless that is too large. -/
def ofRatio? (negative : Bool) (n d : Nat) : Option Binary64 :=
  let magnitude := roundSignificant n d
  if magnitude < overflow then some ⟨negative, magnitude⟩ else none

/-- The double nearest to an integer of the JSON number range. -/
def ofInt (i : Int) : Binary64 := ⟨i < 0, roundSignificant (i.natAbs * one) 1⟩

/-- The signed count of units.  Both zeros count `0`. -/
def units (x : Binary64) : Int := if x.negative then -(x.magnitude : Int) else x.magnitude

def isZero (x : Binary64) : Bool := x.magnitude == 0

def neg (x : Binary64) : Binary64 := { x with negative := !x.negative }

def mul? (x y : Binary64) : Option Binary64 :=
  ofRatio? (x.negative != y.negative) (x.magnitude * y.magnitude) one

/-- The quotient of `x` by a divisor other than zero. -/
def div? (x y : Binary64) : Option Binary64 :=
  ofRatio? (x.negative != y.negative) (x.magnitude * one) y.magnitude

/-- Whether the distance from `x` to the nearest integer is below `bound`. -/
def isNearInteger (x : Binary64) (bound : Binary64) : Bool :=
  let beyond := x.magnitude % one
  min beyond (one - beyond) < bound.magnitude

/-- The double nearest to `10^k`, for `k ≤ 308`. -/
def powerOfTen (k : Nat) : Binary64 := ⟨false, roundSignificant (Nat.pow 10 k * one) 1⟩

theorem units_eq_zero_iff (x : Binary64) : x.units = 0 ↔ x.magnitude = 0 := by
  unfold units; split <;> omega

theorem units_neg (x : Binary64) : x.neg.units = -x.units := by
  cases x with | mk s m => cases s <;> simp [neg, units]

end Binary64
end SchemaTypes
