import SchemaTypes.Pattern.Class
/-!
# Searching a text

A set of positions in a text is a number: bit `i` stands for the place before character `i`.
An expression then moves sets of positions: a character class keeps the places whose next
character it contains and shifts them by one, an assertion keeps the places where it holds,
and repetition adds places until none is new.  A text contains a match if the expression leads
from somewhere to anywhere; where the match ends is never asked.
-/
namespace SchemaTypes.Pattern

/-- A regular expression over characters `χ` and zero-width tests `α`. -/
inductive Expr (χ α : Type) where
  | empty
  | char (set : χ)
  | test (assertion : α)
  | concat (a b : Expr χ α)
  | alternate (a b : Expr χ α)
  /-- At least `least` copies, and at most `most` if that is given. -/
  | repeated (a : Expr χ α) (least : Nat) (most : Option Nat)

def Expr.map {χ α χ' α' : Type} (f : χ → χ') (g : α → α') : Expr χ α → Expr χ' α'
  | .empty => .empty
  | .char set => .char (f set)
  | .test assertion => .test (g assertion)
  | .concat a b => .concat (a.map f g) (b.map f g)
  | .alternate a b => .alternate (a.map f g) (b.map f g)
  | .repeated a least most => .repeated (a.map f g) least most

inductive Assertion where
  | textStart
  | textEnd
  | lineStart
  | lineEnd
  /-- As `lineStart`, where a carriage return ends a line too and both together are one end. -/
  | anyLineStart
  | anyLineEnd
  /-- A boundary of words made of `word` characters. -/
  | boundary (word : Class)
  | noBoundary (word : Class)
  | wordStart (word : Class)
  | wordEnd (word : Class)
  | wordStartHalf (word : Class)
  | wordEndHalf (word : Class)

/-- Whether the assertion holds between two neighbouring characters. -/
def Assertion.holds (before after : Option Char) : Assertion → Bool
  | .textStart => before.isNone
  | .textEnd => after.isNone
  | .lineStart => before.isNone || before == some '\n'
  | .lineEnd => after.isNone || after == some '\n'
  | .anyLineStart => before.isNone || before == some '\n' || (before == some '\r' && after != some '\n')
  | .anyLineEnd => after.isNone || after == some '\r' || (after == some '\n' && before != some '\r')
  | .boundary word => isIn word before != isIn word after
  | .noBoundary word => isIn word before == isIn word after
  | .wordStart word => !isIn word before && isIn word after
  | .wordEnd word => isIn word before && !isIn word after
  | .wordStartHalf word => !isIn word before
  | .wordEndHalf word => !isIn word after
where
  isIn (word : Class) (c : Option Char) : Bool := c.any fun c => word.contains c.toNat

/-! ## Places -/

/-- The places whose next character satisfies `p`, counted from `place`. -/
def placesBefore (p : Char → Bool) : Nat → List Char → Nat
  | _, [] => 0
  | place, c :: rest => (if p c then Nat.pow 2 place else 0) ||| placesBefore p (place + 1) rest

/-- The places between neighbours that satisfy `p`. -/
def placesBetween (p : Option Char → Option Char → Bool) : Nat → Option Char → List Char → Nat
  | place, before, [] => if p before none then Nat.pow 2 place else 0
  | place, before, c :: rest =>
    (if p before (some c) then Nat.pow 2 place else 0) ||| placesBetween p (place + 1) (some c) rest

def repeatExactly (step : Nat → Nat) : Nat → Nat → Nat
  | 0, places => places
  | n + 1, places => if places = 0 then 0 else repeatExactly step n (step places)

/-- Everything reached in at most `n` steps. -/
def repeatUpTo (step : Nat → Nat) : Nat → Nat → Nat
  | 0, places => places
  | n + 1, places =>
    let next := places ||| step places
    if next = places then places else repeatUpTo step n next

/-- Where an expression leads from `places`, in a text of `length` characters.  Each round of
an unbounded repetition adds one of `length + 1` places or is the last. -/
def Expr.reach (length : Nat) : Expr Nat Nat → Nat → Nat
  | .empty, places => places
  | .char set, places => (places &&& set) <<< 1
  | .test set, places => places &&& set
  | .concat a b, places => b.reach length (a.reach length places)
  | .alternate a b, places => a.reach length places ||| b.reach length places
  | .repeated a least most, places =>
    let rounds := match most with
      | some most => most - least
      | none => length + 1
    repeatUpTo (a.reach length) rounds (repeatExactly (a.reach length) least places)

/-- Whether some part of the text matches. -/
def Expr.search (expr : Expr Class Assertion) (text : List Char) : Bool :=
  let located := expr.map
    (fun cls => placesBefore (fun c => cls.contains c.toNat) 0 text)
    (fun assertion => placesBetween (fun before after => assertion.holds before after) 0 none text)
  located.reach text.length (Nat.pow 2 (text.length + 1) - 1) != 0

end SchemaTypes.Pattern
