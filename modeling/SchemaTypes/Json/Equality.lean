import SchemaTypes.Json.Basic
/-!
# Comparing values

Two readings of a number matter.  By value, `1`, `1.0` and `1e0` are one number: this
is what enumerations, constants, uniqueness and bounds go by.  By spelling, an integer
and a float always differ: this is what dropping repeated enumeration values goes by.
Either way objects are compared without regard to the order of their members.
-/
namespace SchemaTypes

namespace Number

/-- The nearest double. -/
def toBinary64 : Number → Binary64
  | .integer i => .ofInt i
  | .float x => x

/-! ## Order

Two integers are read in one machine range, signed or unsigned, and compared there.  Where neither range holds both, one of
them is negative and the other one beyond the signed range.  As soon as a float takes part, the order is that of
doubles. -/

/-- The number in the signed range.  No integer of a JSON number is below it, so one bound is enough. -/
def signed? : Number → Option Int
  | .integer i => if i < 9223372036854775808 then some i else none
  | .float _ => none

/-- The number in the unsigned range.  No integer of a JSON number is above it. -/
def unsigned? : Number → Option Int
  | .integer i => if 0 ≤ i then some i else none
  | .float _ => none

/-- Order of two integers; none where a float takes part. -/
def compareIntegers? (a b : Number) : Option Ordering :=
  match a.signed?, b.signed? with
  | some i, some j => some (Ord.compare i j)
  | _, _ =>
    match a.unsigned?, b.unsigned? with
    | some i, some j => some (Ord.compare i j)
    | _, _ =>
      match a.signed?, b.unsigned? with
      | some _, some _ => some .lt
      | _, _ =>
        match a.unsigned?, b.signed? with
        | some _, some _ => some .gt
        | _, _ => none

/-- Order by value. -/
def compare (a b : Number) : Ordering :=
  (a.compareIntegers? b).getD (Ord.compare a.toBinary64.units b.toBinary64.units)

theorem signed?_integer_of_lt {i : Int} (h : i < 9223372036854775808) : (integer i).signed? = some i := if_pos h

theorem signed?_integer_of_le {i : Int} (h : 9223372036854775808 ≤ i) : (integer i).signed? = none :=
  if_neg (Int.not_lt.2 h)

theorem unsigned?_integer_of_nonneg {i : Int} (h : 0 ≤ i) : (integer i).unsigned? = some i := if_pos h

theorem unsigned?_integer_of_neg {i : Int} (h : i < 0) : (integer i).unsigned? = none := if_neg (Int.not_le.2 h)

/-- **Integers compare exactly**, in whichever range they are read. -/
theorem compareIntegers?_integer (i j : Int) :
    (integer i).compareIntegers? (integer j) = some (Ord.compare i j) := by
  unfold compareIntegers?
  by_cases hi : i < 9223372036854775808
  · by_cases hj : j < 9223372036854775808
    · rw [signed?_integer_of_lt hi, signed?_integer_of_lt hj]
    · have hbeyond := Int.not_lt.1 hj
      rw [signed?_integer_of_lt hi, signed?_integer_of_le hbeyond, unsigned?_integer_of_nonneg (i := j) (by omega)]
      by_cases hneg : i < 0
      · rw [unsigned?_integer_of_neg hneg]
        exact congrArg some (Std.compare_eq_lt.2 (by omega)).symm
      · rw [unsigned?_integer_of_nonneg (Int.not_lt.1 hneg)]
  · have hbeyond := Int.not_lt.1 hi
    rw [signed?_integer_of_le hbeyond, unsigned?_integer_of_nonneg (i := i) (by omega)]
    by_cases hneg : j < 0
    · rw [unsigned?_integer_of_neg hneg, signed?_integer_of_lt (by omega)]
      exact congrArg some (Std.compare_eq_gt.2 (by omega)).symm
    · rw [unsigned?_integer_of_nonneg (Int.not_lt.1 hneg)]

theorem compareIntegers?_float_left (x : Binary64) (n : Number) : (float x).compareIntegers? n = none := rfl

theorem compareIntegers?_float_right (n : Number) (x : Binary64) : n.compareIntegers? (float x) = none := by
  unfold compareIntegers?
  cases n.signed? <;> cases n.unsigned? <;> rfl

theorem compare_integer (i j : Int) : (integer i).compare (integer j) = Ord.compare i j := by
  rw [compare, compareIntegers?_integer, Option.getD_some]

theorem compare_float_left (x : Binary64) (n : Number) :
    (float x).compare n = Ord.compare x.units n.toBinary64.units := rfl

theorem compare_float_right (n : Number) (x : Binary64) :
    n.compare (float x) = Ord.compare n.toBinary64.units x.units := by
  rw [compare, compareIntegers?_float_right, Option.getD_none, toBinary64]

def equal (a b : Number) : Bool := a.compare b == .eq

/-- Equality of spelling; the two zeros among the floats are one. -/
def identical : Number → Number → Bool
  | .integer i, .integer j => i == j
  | .float x, .float y => x.units == y.units
  | _, _ => false

/-! ## Multiples

Both integers in the signed range: exact.  Else the quotient is taken as a double and
has to lie within `1e-9` of an integer; a quotient too large for a double does not. -/

def inSignedRange (i : Int) : Bool := -9223372036854775808 ≤ i && i < 9223372036854775808

/-- The double `1e-9`. -/
def multipleTolerance : Binary64 := ⟨false, roundSignificant Binary64.one (Nat.pow 10 9)⟩

/-- Whether the doubles' quotient is close to an integer; a divisor of zero divides zero only. -/
def isFloatMultiple (value divisor : Binary64) : Bool :=
  if divisor.isZero then value.isZero
  else match value.div? divisor with
    | some quotient => quotient.isNearInteger multipleTolerance
    | none => false

def isMultipleOf : Number → Number → Bool
  | .integer value, .integer divisor =>
    if inSignedRange value && inSignedRange divisor then value.tmod divisor == 0
    else isFloatMultiple (.ofInt value) (.ofInt divisor)
  | value, divisor => isFloatMultiple value.toBinary64 divisor.toBinary64

end Number

namespace Json

mutual
/-- Structural equality, given when two numbers are equal. -/
def equalBy (numbers : Number → Number → Bool) : Json → Json → Bool
  | .null, .null => true
  | .bool a, .bool b => a == b
  | .number a, .number b => numbers a b
  | .string a, .string b => a == b
  | .array a, .array b => itemsEqualBy numbers a b
  | .object a, .object b => a.length == b.length && membersEqualBy numbers a b
  | _, _ => false
def itemsEqualBy (numbers : Number → Number → Bool) : List Json → List Json → Bool
  | [], [] => true
  | a :: as, b :: bs => equalBy numbers a b && itemsEqualBy numbers as bs
  | _, _ => false
/-- Whether every member of the first list has an equal namesake in the second. -/
def membersEqualBy (numbers : Number → Number → Bool) :
    List (String × Json) → List (String × Json) → Bool
  | [], _ => true
  | (name, a) :: as, bs =>
    (match Members.get? bs name with
      | some b => equalBy numbers a b
      | none => false) && membersEqualBy numbers as bs
end

/-- Equality by value: `1` equals `1.0`. -/
def equal : Json → Json → Bool := equalBy Number.equal

/-- Equality by spelling: `1` differs from `1.0`. -/
def identical : Json → Json → Bool := equalBy Number.identical

/-- The values without those identical to an earlier one. -/
def distinct (values : List Json) : List Json :=
  values.foldl (fun kept value => if kept.any (identical · value) then kept else kept ++ [value]) []

/-- Whether no two items are equal by value. -/
def allDistinct : List Json → Bool
  | [] => true
  | item :: rest => rest.all (fun other => !equal item other) && allDistinct rest

end Json
end SchemaTypes
