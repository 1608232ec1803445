import SchemaTypes.Binary64.Basic
import SchemaTypes.Json.Reader
import SchemaTypes.Toml.Table
/-!
# Reading TOML

`Toml.parse?` reads a document, version 1.0 of the language.  Every function here takes the
text that is left and answers what is behind the part it reads, or none for a fault.

Integers have to fit 64 bits with sign, a positive float must not be too large for a double,
dates have to exist.  Arrays and inline tables nest less than `limit` deep, and a dotted key has
fewer parts than that.
-/
namespace SchemaTypes.Toml

abbrev Input := List Char

namespace Reader

def limit : Nat := 80

/-! ## Blanks, comments and line ends -/

def isBlank (c : Char) : Bool := c = ' ' || c = '\t'

def skipBlanks (input : Input) : Input := input.dropWhile isBlank

/-- A character that comments and literal strings may hold. -/
def isPlain (c : Char) : Bool := c = '\t' || (0x20 ≤ c.toNat && c.toNat ≠ 0x7F)

def newline? : Input → Option Input
  | '\n' :: rest | '\r' :: '\n' :: rest => some rest
  | _ => none

/-- The end of a line or of the text, behind blanks and a comment. -/
def lineEnd? (input : Input) : Option Input :=
  let rest := match skipBlanks input with
    | '#' :: rest => rest.dropWhile isPlain
    | rest => rest
  if rest.isEmpty then some [] else newline? rest

/-- Skip blanks, comments and line ends, where values may span lines. -/
def skipLines (inComment : Bool) : Input → Input
  | [] => []
  | '\n' :: rest | '\r' :: '\n' :: rest => skipLines false rest
  | c :: rest =>
    if inComment && isPlain c then skipLines true rest
    else if inComment then c :: rest
    else if isBlank c then skipLines false rest
    else if c = '#' then skipLines true rest
    else c :: rest

/-! ## Strings -/

def hexNumber? (digits : List Char) : Option Nat :=
  digits.foldl (fun n? c => do return 16 * (← n?) + (← Json.Reader.hexValue? c)) (some 0)

/-- The character of a code point that is one. -/
def scalar? (code : Nat) : Option Char :=
  if code < 0xD800 ∨ (0xDFFF < code ∧ code < 0x110000) then some (Char.ofNat code) else none

/-- The character of a one-letter escape. -/
def escaped? (c : Char) : Option Char :=
  if c = '/' then none else Json.Reader.escaped? c

/-- The rest of a basic string, behind its opening quote. -/
def basicRest? (read : List Char) : Input → Option (String × Input)
  | [] => none
  | '"' :: rest => some (String.ofList read.reverse, rest)
  | '\\' :: 'u' :: a :: b :: c :: d :: rest =>
    match (hexNumber? [a, b, c, d]).bind scalar? with
    | some char => basicRest? (char :: read) rest
    | none => none
  | '\\' :: 'U' :: a :: b :: c :: d :: e :: f :: g :: h :: rest =>
    match (hexNumber? [a, b, c, d, e, f, g, h]).bind scalar? with
    | some char => basicRest? (char :: read) rest
    | none => none
  | '\\' :: c :: rest =>
    match escaped? c with
    | some char => basicRest? (char :: read) rest
    | none => none
  | c :: rest => if c ≠ '\\' ∧ isPlain c then basicRest? (c :: read) rest else none

/-- The rest of a literal string, behind its opening apostrophe. -/
def literalRest? (input : Input) : Option (String × Input) :=
  match input.dropWhile fun c => c ≠ '\'' && isPlain c with
  | '\'' :: rest => some (String.ofList (input.takeWhile fun c => c ≠ '\'' && isPlain c), rest)
  | _ => none

/-- What is behind the closing of a string over lines, given what is behind its first three marks:
up to two more marks belong to the string. -/
def closed? (mark : Char) (rest : Input) : Option Input :=
  let marks := (rest.takeWhile (· = mark)).length
  if marks ≤ 2 then some (rest.drop marks) else none

/-- Whether a line ends behind blanks only. -/
def endsLine (input : Input) : Bool := (newline? (skipBlanks input)).isSome

/-- The rest of a basic string over lines, behind its opening; its text is not kept. -/
def basicLines? : Input → Option Input
  | [] => none
  | '"' :: '"' :: '"' :: rest => closed? '"' rest
  | '\\' :: 'u' :: a :: b :: c :: d :: rest =>
    if ((hexNumber? [a, b, c, d]).bind scalar?).isSome then basicLines? rest else none
  | '\\' :: 'U' :: a :: b :: c :: d :: e :: f :: g :: h :: rest =>
    if ((hexNumber? [a, b, c, d, e, f, g, h]).bind scalar?).isSome then basicLines? rest else none
  | '\\' :: c :: rest =>
    if (escaped? c).isSome || endsLine (c :: rest) then basicLines? rest else none
  | '\r' :: '\n' :: rest => basicLines? rest
  | c :: rest => if c ≠ '\\' ∧ (isPlain c ∨ c = '\n') then basicLines? rest else none

/-- The rest of a literal string over lines, behind its opening. -/
def literalLines? : Input → Option Input
  | [] => none
  | '\'' :: '\'' :: '\'' :: rest => closed? '\'' rest
  | '\r' :: '\n' :: rest => literalLines? rest
  | c :: rest => if isPlain c ∨ c = '\n' then literalLines? rest else none

/-! ## Keys -/

def isBare (c : Char) : Bool := c.isAlphanum || c = '_' || c = '-'

def simpleKey? : Input → Option (String × Input)
  | '"' :: rest => basicRest? [] rest
  | '\'' :: rest => literalRest? rest
  | input =>
    let key := input.takeWhile isBare
    if key.isEmpty then none else some (String.ofList key, input.dropWhile isBare)

/-- The parts of a dotted key, at most as many as the count says. -/
def parts? : (count : Nat) → Input → Option (List String × Input)
  | 0, _ => none
  | count + 1, input => do
    let (part, rest) ← simpleKey? (skipBlanks input)
    match skipBlanks rest with
    | '.' :: rest =>
      let (parts, rest) ← parts? count rest
      return (part :: parts, rest)
    | rest => return ([part], rest)

/-- A dotted key: the path, and the key at its end. -/
def key? (input : Input) : Option ((List String × String) × Input) := do
  let (parts, rest) ← parts? (limit - 1) input
  return ((parts.dropLast, ← parts.getLast?), rest)

/-! ## Numbers -/

/-- Digits, each but the first perhaps behind an underscore. -/
def digitsRest (isDigit : Char → Bool) (read : List Char) : Input → List Char × Input
  | [] => (read.reverse, [])
  | [c] => if isDigit c then ((c :: read).reverse, []) else (read.reverse, [c])
  | c :: d :: rest =>
    if isDigit c then digitsRest isDigit (c :: read) (d :: rest)
    else if c = '_' && isDigit d then digitsRest isDigit (d :: read) rest
    else (read.reverse, c :: d :: rest)

def digits? (isDigit : Char → Bool) : Input → Option (List Char × Input)
  | c :: rest => if isDigit c then some (digitsRest isDigit [c] rest) else none
  | [] => none

def valueOf (base : Nat) (digits : List Char) : Nat :=
  digits.foldl (fun n c => base * n + (Json.Reader.hexValue? c).getD 0) 0

/-- The sign, if any: whether it is a minus, and what is behind it. -/
def sign : Input → Bool × Input
  | '-' :: rest => (true, rest)
  | '+' :: rest => (false, rest)
  | rest => (false, rest)

/-- A decimal integer behind its sign.  A leading zero stands alone. -/
def decimal? : Input → Option (List Char × Input)
  | '0' :: rest => some (['0'], rest)
  | input => digits? Char.isDigit input

/-- An integer in another base, behind its mark. -/
def based? (base : Nat) (isDigit : Char → Bool) (input : Input) : Option Input := do
  let (digits, rest) ← digits? isDigit input
  if valueOf base digits < Nat.pow 2 63 then return rest else none

def integer? : Input → Option Input
  | '0' :: 'x' :: rest => based? 16 (fun c => (Json.Reader.hexValue? c).isSome) rest
  | '0' :: 'o' :: rest => based? 8 (fun c => '0' ≤ c && c ≤ '7') rest
  | '0' :: 'b' :: rest => based? 2 (fun c => c = '0' || c = '1') rest
  | input => do
    let (negative, unsigned) := sign input
    let (digits, rest) ← decimal? unsigned
    let value := valueOf 10 digits
    if value < Nat.pow 2 63 ∨ (negative ∧ value = Nat.pow 2 63) then return rest else none

/-- The exponent behind its mark, as an integer. -/
def exponent? (input : Input) : Option (Int × Input) := do
  let (negative, unsigned) := sign input
  let (digits, rest) ← digits? Char.isDigit unsigned
  let value : Int := valueOf 10 digits
  return (if negative then -value else value, rest)

/-- Whether `significand * 10^exponent` rounds to a double: it is below the middle between the
greatest one and the power of two that follows.  The significand has that many digits, so only
numbers of some 300 digits need a closer look. -/
def fitsDouble (significand digits : Nat) (exponent : Int) : Bool :=
  if significand = 0 ∨ exponent + digits < 300 then true
  else if 400 < exponent + digits then false
  else
    let bound := (Nat.pow 2 54 - 1) * Nat.pow 2 970
    if 0 ≤ exponent then significand * Nat.pow 10 exponent.toNat < bound
    else significand < bound * Nat.pow 10 exponent.natAbs

/-- A float of digits: with a fraction, an exponent or both. -/
def decimalFloat? (input : Input) : Option Input := do
  let (negative, unsigned) := sign input
  let (whole, afterWhole) ← decimal? unsigned
  let (fraction, afterFraction) ← match afterWhole with
    | '.' :: rest => digits? Char.isDigit rest
    | rest => some ([], rest)
  let (exponent, marked, rest) ← match afterFraction with
    | 'e' :: rest | 'E' :: rest => (exponent? rest).map fun (value, rest) => (value, true, rest)
    | rest => some (0, false, rest)
  if fraction.isEmpty ∧ ¬ marked then none
  else
    let digits := (whole ++ fraction).dropWhile (· = '0')
    if negative || fitsDouble (valueOf 10 digits) digits.length (exponent - fraction.length) then
      return rest
    else none

def float? (input : Input) : Option Input :=
  decimalFloat? input <|>
    match (sign input).2 with
    | 'i' :: 'n' :: 'f' :: rest | 'n' :: 'a' :: 'n' :: rest => some rest
    | _ => none

/-! ## Dates and times -/

/-- Exactly so many digits, with a value in a range. -/
def field? (count low high : Nat) (input : Input) : Option (Nat × Input) :=
  let digits := input.take count
  let value := valueOf 10 digits
  if digits.length = count ∧ digits.all Char.isDigit ∧ low ≤ value ∧ value ≤ high then
    some (value, input.drop count)
  else none

def mark? (mark : Char) : Input → Option Input
  | c :: rest => if c = mark then some rest else none
  | [] => none

def daysIn (year month : Nat) : Nat :=
  if month = 2 then if year % 4 = 0 ∧ (year % 100 ≠ 0 ∨ year % 400 = 0) then 29 else 28
  else if [4, 6, 9, 11].contains month then 30
  else 31

def date? (input : Input) : Option Input := do
  let (year, rest) ← field? 4 0 9999 input
  let (month, rest) ← field? 2 1 12 (← mark? '-' rest)
  let (_, rest) ← field? 2 1 (daysIn year month) (← mark? '-' rest)
  return rest

def time? (input : Input) : Option Input := do
  let (_, rest) ← field? 2 0 23 input
  let (_, rest) ← field? 2 0 59 (← mark? ':' rest)
  let (_, rest) ← field? 2 0 60 (← mark? ':' rest)
  match rest with
  | '.' :: c :: fraction => return if c.isDigit then fraction.dropWhile Char.isDigit else rest
  | rest => return rest

def offset? : Input → Option Input
  | 'Z' :: rest | 'z' :: rest => some rest
  | '+' :: rest | '-' :: rest => do
    let (_, rest) ← field? 2 0 23 rest
    let (_, rest) ← field? 2 0 59 (← mark? ':' rest)
    return rest
  | _ => none

/-- What is behind the time of a date, if there is one. -/
def timeOfDate (input : Input) : Input :=
  match input with
  | c :: rest =>
    if c = 'T' || c = 't' || c = ' ' then
      match time? rest with
      | some rest => (offset? rest).getD rest
      | none => input
    else input
  | [] => []

def dateTime? (input : Input) : Option Input := (date? input).map timeOfDate <|> time? input

/-! ## Values -/

/-- The items of an array behind its opening or a comma, at most as many as the count says. -/
def items? (value? : Input → Option (Entry × Input)) : (count : Nat) → Input → Option Input
  | 0, _ => none
  | count + 1, input =>
    match skipLines false input with
    | ']' :: rest => some rest
    | input => do
      let (_, rest) ← value? input
      match skipLines false rest with
      | ',' :: rest => items? value? count rest
      | ']' :: rest => some rest
      | _ => none

/-- A key with its path, the sign of equality, and a value. -/
def pair? (value? : Input → Option (Entry × Input)) (input : Input) :
    Option ((List String × String × Entry) × Input) := do
  let ((path, key), rest) ← key? input
  let (value, rest) ← value? (skipBlanks (← mark? '=' rest))
  return ((path, key, value), rest)

/-- The pairs of an inline table behind its opening or a comma. -/
def pairs? (value? : Input → Option (Entry × Input)) (entries : Entries) :
    (count : Nat) → Input → Option Input
  | 0, _ => none
  | count + 1, input => do
    let ((path, key, value), rest) ← pair? value? input
    let entries ← entries.insertPair path key value
    match skipBlanks rest with
    | ',' :: rest => pairs? value? entries count rest
    | '}' :: rest => some rest
    | _ => none

def inlineTable? (value? : Input → Option (Entry × Input)) (input : Input) : Option Input :=
  match skipBlanks input with
  | '}' :: rest => some rest
  | input => pairs? value? [] (input.length + 1) input

/-- The text behind a string, over lines or not. -/
def string? : Input → Option Input
  | '"' :: '"' :: '"' :: rest => basicLines? ((newline? rest).getD rest)
  | '\'' :: '\'' :: '\'' :: rest => literalLines? ((newline? rest).getD rest)
  | '"' :: rest => (basicRest? [] rest).map (·.2)
  | '\'' :: rest => (literalRest? rest).map (·.2)
  | _ => none

def number? (input : Input) : Option Input := dateTime? input <|> float? input <|> integer? input

/-- A value that starts with the first character and nests others less than `depth` deep. -/
def value? (depth : Nat) (input : Input) : Option (Entry × Input) :=
  match input with
  | 't' :: 'r' :: 'u' :: 'e' :: rest => some (.boolean true, rest)
  | 'f' :: 'a' :: 'l' :: 's' :: 'e' :: rest => some (.boolean false, rest)
  | '[' :: rest =>
    match depth with
    | 0 => none
    | depth + 1 => (items? (value? depth) (rest.length + 1) rest).map (.other, ·)
  | '{' :: rest =>
    match depth with
    | 0 => none
    | depth + 1 => (inlineTable? (value? depth) rest).map (.other, ·)
  | input => (string? input <|> number? input).map (.other, ·)

/-! ## Statements -/

def statement? : Input → Option (Statement × Input)
  | '[' :: '[' :: rest => do
    let ((path, key), rest) ← key? rest
    return (.tables path key, ← mark? ']' (← mark? ']' rest))
  | '[' :: rest => do
    let ((path, key), rest) ← key? rest
    return (.table path key, ← mark? ']' rest)
  | input =>
    (pair? (value? (limit - 1)) input).map fun ((path, key, value), rest) =>
      (.pair path key value, rest)

/-- All statements, each on a line of its own; at most as many lines as the count says. -/
def statements? : (count : Nat) → Input → Option (List Statement)
  | 0, _ => none
  | count + 1, input =>
    match skipBlanks input with
    | [] => some []
    | input =>
      match lineEnd? input with
      | some rest => statements? count rest
      | none => do
        let (statement, rest) ← statement? input
        return statement :: (← statements? count (← lineEnd? rest))

end Reader

/-- The table a text describes, if it is TOML.  A byte order mark may lead the text. -/
def parse? (text : String) : Option Entries := do
  let input := match text.toList with
    | '\uFEFF' :: rest => rest
    | input => input
  return (← Document.ofStatements? (← Reader.statements? (input.length + 1) input)).entries

end SchemaTypes.Toml
