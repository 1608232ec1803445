import SchemaTypes.Binary64.Basic
/-!
# Doubles and decimal text

Reading takes a decimal significand and a power of ten.  The significand is rounded
to a double first and then multiplied or divided by the double of the power of ten,
which rounds again: `ofDecimal?` is that two-step rule, not the nearest double.

Writing takes the fewest digits that round back to the double; of several such
decimals the nearest, and of two equally near ones the even one.  Where positional
writing ends and how an exponent is spelled is decided in `positionOrExponent` alone.
-/
namespace SchemaTypes.Binary64

/-! ## Reading -/

/-- Divide by `10^k`.  Divisors beyond `10^308` are applied in steps of `10^308`,
and the steps end early at zero. -/
def divByPowerOfTen? (x : Binary64) (k : Nat) : Option Binary64 :=
  if k ≤ 308 then x.div? (powerOfTen k)
  else if x.isZero then some x
  else (x.div? (powerOfTen 308)).bind (divByPowerOfTen? · (k - 308))
termination_by k

/-- The double read from `significand * 10^exponent`; `none` if it is too large. -/
def ofDecimal? (negative : Bool) (significand : Nat) (exponent : Int) : Option Binary64 :=
  let x := ofInt significand
  let scaled? :=
    if 0 ≤ exponent then
      if exponent ≤ 308 then x.mul? (powerOfTen exponent.toNat)
      else if x.isZero then some x
      else none
    else divByPowerOfTen? x exponent.natAbs
  scaled?.map fun y => if negative then y.neg else y

/-! ## The fewest digits that read back -/

/-- The magnitude nearest to `digits * 10^exponent`. -/
def nearestMagnitude (digits : Nat) (exponent : Int) : Nat :=
  if 0 ≤ exponent then roundSignificant (digits * Nat.pow 10 exponent.toNat * one) 1
  else roundSignificant (digits * one) (Nat.pow 10 exponent.natAbs)

/-- The exponent `e` with `10^e ≤ m < 10^(e+1)`, for a magnitude `m` other than zero.
The least magnitude is above `10^-324`, so `m * 10^324` has a digit before the point. -/
def decimalExponent (magnitude : Nat) : Int :=
  ((Nat.toDigits 10 (magnitude * Nat.pow 10 324 / one)).length : Int) - 1 - 324

/-- A decimal `digits * 10^exponent`. -/
structure Decimal where
  digits : Nat
  exponent : Int
deriving DecidableEq, Repr

/-- The decimal nearest to `magnitude` among the two neighbours on the grid `10^exponent`
that read back as `magnitude`. -/
def neighbour? (magnitude : Nat) (exponent : Int) : Option Decimal :=
  let n := if 0 ≤ exponent then magnitude else magnitude * Nat.pow 10 exponent.natAbs
  let d := if 0 ≤ exponent then one * Nat.pow 10 exponent.toNat else one
  let near := roundHalfEven n d
  let far := if near = n / d then near + 1 else n / d
  ([near, far].find? fun digits => nearestMagnitude digits exponent == magnitude).map
    fun digits => ⟨digits, exponent⟩

/-- The shortest decimal that reads back as `magnitude`; seventeen digits always do. -/
def shortest (magnitude : Nat) : Decimal :=
  let top := decimalExponent magnitude
  ((List.range 17).findSome? fun (k : Nat) => neighbour? magnitude (top - k)).getD ⟨0, 0⟩

/-! ## Writing -/

/-- The digits without the zeros at their end. -/
def trimZeros (digits : List Char) : List Char := (digits.reverse.dropWhile (· == '0')).reverse

def zeros (n : Nat) : List Char := List.replicate n '0'

/-- Digits with a point: positional if the exponent of the first digit is in `-5 … 15`,
else one digit before the point and a signed exponent. -/
def positionOrExponent (digits : List Char) (exponent : Int) : List Char :=
  let count := digits.length
  if exponent < -5 ∨ 15 < exponent then
    let rest := digits.drop 1
    digits.take 1 ++ (if rest.isEmpty then [] else '.' :: rest) ++ 'e' ::
      (if exponent < 0 then '-' else '+') :: (toString exponent.natAbs).toList
  else if exponent < 0 then '0' :: '.' :: zeros (exponent.natAbs - 1) ++ digits
  else
    let before := exponent.toNat + 1
    if count ≤ before then digits ++ zeros (before - count) ++ ['.', '0']
    else digits.take before ++ '.' :: digits.drop before

/-- The text of a double: `0.0`, `-0.0`, `1.5`, `0.00001`, `1e+16`, `1.5e-7`. -/
def text (x : Binary64) : String :=
  let body :=
    if x.isZero then ['0', '.', '0']
    else
      let decimal := shortest x.magnitude
      let digits := Nat.toDigits 10 decimal.digits
      positionOrExponent (trimZeros digits) (decimal.exponent + digits.length - 1)
  String.ofList (if x.negative then '-' :: body else body)

end SchemaTypes.Binary64
