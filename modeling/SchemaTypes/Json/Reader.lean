import SchemaTypes.Json.Basic
import SchemaTypes.Binary64.Decimal
/-!
# Reading JSON text

`Json.parse?` reads one value and nothing after it but blanks; any fault answers `none`.
Containers nest at most 127 deep, and that limit is the recursion's measure.  A repeated
member name keeps its first position and takes its last value.

Numbers follow one rule.  The digits of the literal, before and behind the point, are
gathered into a significand for as long as it stays below `2^64`; digits that no longer fit
are dropped, those before the point being counted by the exponent.  Without a point, an exponent or
dropped digits the literal is an integer; otherwise `Binary64.ofDecimal?` makes it a double.
-/
namespace SchemaTypes.Json.Reader

abbrev Input := List Char

def isBlank (c : Char) : Bool := c = ' ' || c = '\n' || c = '\t' || c = '\r'

def skipBlanks (input : Input) : Input := input.dropWhile isBlank

def digitValue (c : Char) : Nat := c.toNat - '0'.toNat

/-! ## Strings -/

def hexValue? (c : Char) : Option Nat :=
  if '0' ≤ c ∧ c ≤ '9' then some (c.toNat - 48)
  else if 'a' ≤ c ∧ c ≤ 'f' then some (c.toNat - 87)
  else if 'A' ≤ c ∧ c ≤ 'F' then some (c.toNat - 55)
  else none

def hexCode? (a b c d : Char) : Option Nat := do
  pure ((((← hexValue? a) * 16 + (← hexValue? b)) * 16 + (← hexValue? c)) * 16 + (← hexValue? d))

/-- The character of a one-letter escape. -/
def escaped? (c : Char) : Option Char :=
  match c with
  | '"' => some '"'
  | '\\' => some '\\'
  | '/' => some '/'
  | 'b' => some '\x08'
  | 'f' => some '\x0c'
  | 'n' => some '\n'
  | 'r' => some '\r'
  | 't' => some '\t'
  | _ => none

/-- The character two surrogate halves stand for. -/
def surrogatePair? (high low : Nat) : Option Char :=
  if 0xD800 ≤ high ∧ high ≤ 0xDBFF ∧ 0xDC00 ≤ low ∧ low ≤ 0xDFFF then
    some (Char.ofNat (0x10000 + (high - 0xD800) * 0x400 + (low - 0xDC00)))
  else none

def isSurrogate (code : Nat) : Bool := 0xD800 ≤ code && code ≤ 0xDFFF

/-- The rest of a string literal, behind its opening quote.  A lone surrogate half, a raw
control character and an unknown escape are faults. -/
def stringRest? (read : List Char) : Input → Option (String × Input)
  | [] => none
  | '"' :: rest => some (String.ofList read.reverse, rest)
  | '\\' :: 'u' :: a :: b :: c :: d :: rest =>
    match hexCode? a b c d with
    | none => none
    | some code =>
      if isSurrogate code then
        match rest with
        | '\\' :: 'u' :: e :: f :: g :: h :: rest' =>
          match (hexCode? e f g h).bind (surrogatePair? code) with
          | some char => stringRest? (char :: read) rest'
          | none => none
        | _ => none
      else stringRest? (Char.ofNat code :: read) rest
  | '\\' :: c :: rest =>
    match escaped? c with
    | some char => stringRest? (char :: read) rest
    | none => none
  | c :: rest => if c = '\\' ∨ c.toNat < 0x20 then none else stringRest? (c :: read) rest

/-! ## Numbers -/

/-- Add digits to a significand below `2^64` while the result stays there.  Answers the
significand and the digits left over. -/
def gather (significand : Nat) : List Char → Nat × List Char
  | [] => (significand, [])
  | c :: rest =>
    let next := significand * 10 + digitValue c
    if next < Nat.pow 2 64 then gather next rest else (significand, c :: rest)

/-- The exponent behind `e`: its sign and its magnitude. -/
def exponentPart? (input : Input) : Option ((Bool × Nat) × Input) :=
  let (negative, unsigned) := match input with
    | '+' :: rest => (false, rest)
    | '-' :: rest => (true, rest)
    | rest => (false, rest)
  let digits := unsigned.takeWhile Char.isDigit
  if digits.isEmpty then none
  else some ((negative, digits.foldl (fun n c => n * 10 + digitValue c) 0), unsigned.dropWhile Char.isDigit)

/-- A float from its parts.  An exponent beyond the 31-bit range makes zero or is a fault. -/
def floatOf? (negative : Bool) (significand : Nat) (exponent : Int) (written : Option (Bool × Nat)) :
    Option Number :=
  match written with
  | none => (Binary64.ofDecimal? negative significand exponent).map .float
  | some (down, magnitude) =>
    if magnitude < Nat.pow 2 31 then
      let exponent := if down then exponent - magnitude else exponent + magnitude
      (Binary64.ofDecimal? negative significand exponent).map .float
    else if significand = 0 ∨ down then some (.float ⟨negative, 0⟩)
    else none

/-- A whole number without point or exponent, of digits that all fit the significand. -/
def wholeNumber (negative : Bool) (significand : Nat) : Number :=
  if !negative then .integer significand
  else if significand = 0 ∨ Nat.pow 2 63 < significand then .float (Binary64.ofInt significand).neg
  else .integer (-significand)

/-- The literal behind its sign. -/
def unsignedNumber? (negative : Bool) (input : Input) : Option (Number × Input) :=
  let whole := input.takeWhile Char.isDigit
  let afterWhole := input.dropWhile Char.isDigit
  if whole.isEmpty ∨ (whole.head? = some '0' ∧ 1 < whole.length) then none
  else
    let (significand, dropped) := gather 0 whole
    let (fraction?, afterFraction) := match afterWhole with
      | '.' :: rest => (some (rest.takeWhile Char.isDigit), rest.dropWhile Char.isDigit)
      | rest => (none, rest)
    if fraction? = some [] then none
    else
      let fraction := fraction?.getD []
      let (significand, left) := gather significand fraction
      let exponent : Int := dropped.length - (fraction.length - left.length : Nat)
      match afterFraction with
      | 'e' :: rest | 'E' :: rest =>
        match exponentPart? rest with
        | none => none
        | some (written, rest) =>
          (floatOf? negative significand exponent (some written)).map (·, rest)
      | rest =>
        if fraction?.isNone ∧ dropped.isEmpty then some (wholeNumber negative significand, rest)
        else (floatOf? negative significand exponent none).map (·, rest)

def number? : Input → Option (Number × Input)
  | '-' :: rest => unsignedNumber? true rest
  | input => unsignedNumber? false input

/-! ## Containers

Each is given the reader of one value, and reads items or members until the closing bracket.
The count bounds how many there can be: every item takes at least one character. -/

def itemsRest? (value? : Input → Option (Json × Input)) :
    Nat → List Json → Input → Option (List Json × Input)
  | 0, _, _ => none
  | count + 1, read, input =>
    match value? (skipBlanks input) with
    | none => none
    | some (item, rest) =>
      match skipBlanks rest with
      | ',' :: rest => itemsRest? value? count (item :: read) rest
      | ']' :: rest => some ((item :: read).reverse, rest)
      | _ => none

def items? (value? : Input → Option (Json × Input)) (input : Input) : Option (List Json × Input) :=
  match skipBlanks input with
  | ']' :: rest => some ([], rest)
  | input => itemsRest? value? input.length [] input

def membersRest? (value? : Input → Option (Json × Input)) :
    Nat → Members → Input → Option (Members × Input)
  | 0, _, _ => none
  | count + 1, read, input =>
    match skipBlanks input with
    | '"' :: input =>
      match stringRest? [] input with
      | none => none
      | some (name, rest) =>
        match skipBlanks rest with
        | ':' :: rest =>
          match value? (skipBlanks rest) with
          | none => none
          | some (value, rest) =>
            let read := read.insert name value
            match skipBlanks rest with
            | ',' :: rest => membersRest? value? count read rest
            | '}' :: rest => some (read, rest)
            | _ => none
        | _ => none
    | _ => none

def members? (value? : Input → Option (Json × Input)) (input : Input) : Option (Members × Input) :=
  match skipBlanks input with
  | '}' :: rest => some ([], rest)
  | input => membersRest? value? input.length [] input

/-- A value that starts with the first character and nests containers at most `depth` deep. -/
def value? (depth : Nat) (input : Input) : Option (Json × Input) :=
  match input with
  | 'n' :: 'u' :: 'l' :: 'l' :: rest => some (.null, rest)
  | 't' :: 'r' :: 'u' :: 'e' :: rest => some (.bool true, rest)
  | 'f' :: 'a' :: 'l' :: 's' :: 'e' :: rest => some (.bool false, rest)
  | '"' :: rest => (stringRest? [] rest).map fun (text, rest) => (.string text, rest)
  | '[' :: rest =>
    match depth with
    | 0 => none
    | depth + 1 => (items? (value? depth) rest).map fun (items, rest) => (.array items, rest)
  | '{' :: rest =>
    match depth with
    | 0 => none
    | depth + 1 => (members? (value? depth) rest).map fun (members, rest) => (.object members, rest)
  | input => (number? input).map fun (literal, rest) => (.number literal, rest)

/-- How deep containers may nest. -/
def maxDepth : Nat := 127

end Reader

/-- The value written by a text, if it is JSON. -/
def parse? (text : String) : Option Json :=
  match Reader.value? Reader.maxDepth (Reader.skipBlanks text.toList) with
  | some (value, rest) => if (Reader.skipBlanks rest).isEmpty then some value else none
  | none => none

end SchemaTypes.Json
