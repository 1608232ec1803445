import SchemaTypes.Text.Alphanumeric
import SchemaTypes.Text.Blank
import SchemaTypes.Pattern.Search
/-!
# Reading patterns

The text of a pattern is read into an expression in one pass.  Characters are Unicode
throughout; there is no look-around and no back reference, an escaped letter or digit without
a meaning is refused, and so is a bracket or a quantifier that does not belong anywhere.  Flags
written inside a group hold until the group ends, alternatives included.

Groups and nested brackets recurse.  Every round of a loop below takes a character of the
pattern, so its length bounds the rounds.
-/
namespace SchemaTypes.Pattern

abbrev Input := List Char

structure Flags where
  ignoreCase : Bool := false
  multiLine : Bool := false
  dotAll : Bool := false
  /-- Whether a carriage return ends a line as well. -/
  anyLineEnd : Bool := false
  unicode : Bool := true
  /-- Whether blanks and comments in the pattern are skipped. -/
  verbose : Bool := false

def skipVerbose (inComment : Bool) : Input → Input
  | [] => []
  | c :: rest =>
    if inComment then skipVerbose (c != '\n') rest
    else if Text.isBlank c then skipVerbose false rest
    else if c = '#' then skipVerbose true rest
    else c :: rest

/-- What follows the blanks and comments, if the flags ask to skip them. -/
def skip (flags : Flags) (input : Input) : Input :=
  if flags.verbose then skipVerbose false input else input

def foldedIf (flags : Flags) (cls : Class) : Class :=
  if flags.ignoreCase then (if flags.unicode then .folded cls else .foldedAscii cls) else cls

/-! ## Escapes -/

/-- What a character or an escape stands for.  A character written as two hexadecimal digits is
marked, since without Unicode it would be a byte. -/
inductive Atom where
  | char (c : Char) (twoDigits : Bool)
  | cls (cls : Class)
  | test (assertion : Assertion)

def hexDigit? (c : Char) : Option Nat :=
  if '0' ≤ c ∧ c ≤ '9' then some (c.toNat - 48)
  else if 'a' ≤ c ∧ c ≤ 'f' then some (c.toNat - 87)
  else if 'A' ≤ c ∧ c ≤ 'F' then some (c.toNat - 55)
  else none

def hexValue? (digits : Input) : Option Nat :=
  digits.foldl (fun value? c => do pure (16 * (← value?) + (← hexDigit? c))) (some 0)

def charOfCode? (code : Nat) : Option Char :=
  if h : code.isValidChar then some (Char.ofNatAux code h) else none

/-- `count` hexadecimal digits, or any number of them in braces. -/
def hexEscape? (flags : Flags) (count : Nat) (input : Input) : Option (Atom × Input) :=
  match skip flags input with
  | '{' :: rest =>
    let inside := rest.takeWhile (· ≠ '}')
    let digits := if flags.verbose then inside.filter (!Text.isBlank ·) else inside
    match rest.dropWhile (· ≠ '}') with
    | _ :: rest => do
      if digits.isEmpty then none
      let c ← charOfCode? (← hexValue? digits)
      pure (.char c false, skip flags rest)
    | [] => none
  | input => do
    let digits := input.take count
    if digits.length < count then none
    let c ← charOfCode? (← hexValue? digits)
    pure (.char c (count == 2), skip flags (input.drop count))

/-- The text before and after the first place where `mark` stands. -/
def splitAtFirst? (mark : Input) : Input → Option (Input × Input)
  | [] => none
  | c :: rest =>
    if mark.isPrefixOf (c :: rest) then some ([], (c :: rest).drop mark.length)
    else (splitAtFirst? mark rest).map fun (before, after) => (c :: before, after)

/-- The class named between the braces: `Greek`, `Script=Greek`, `gc!=Lu`. -/
def describedClass? (flags : Flags) (negated : Bool) (name : Input) : Option Class :=
  let close := fun (cls : Class) (negated : Bool) => Class.negatedIf negated (foldedIf flags cls)
  match splitAtFirst? ['!', '='] name with
  | some (property, value) => (valuedClass? property value).map (close · !negated)
  | none =>
    match splitAtFirst? [':'] name <|> splitAtFirst? ['='] name with
    | some (property, value) => (valuedClass? property value).map (close · negated)
    | none => (namedClass? name).map (close · negated)

def unicodeClass? (flags : Flags) (negated : Bool) (input : Input) : Option (Atom × Input) :=
  if !flags.unicode then none
  else match skip flags input with
    | '{' :: rest =>
      let inside := rest.takeWhile (· ≠ '}')
      let name := if flags.verbose then inside.filter (!Text.isBlank ·) else inside
      match rest.dropWhile (· ≠ '}') with
      | _ :: rest => (describedClass? flags negated name).map fun cls => (.cls cls, rest)
      | [] => none
    | '\\' :: _ => none
    | c :: rest => (describedClass? flags negated [c]).map fun cls => (.cls cls, skip flags rest)
    | [] => none

/-- A class in its Unicode and its ASCII form; the complement of the latter would hold bytes
that are no characters and is refused. -/
def shorthand? (flags : Flags) (negated : Bool) (unicode ascii : Class) : Option Atom :=
  if flags.unicode then some (.cls (.negatedIf negated unicode))
  else if negated then none
  else some (.cls ascii)

def wordOf (flags : Flags) : Class := if flags.unicode then wordClass else asciiWord

def isBoundaryNameChar (c : Char) : Bool := c.isAlpha || c = '-'

/-- What `\b` stands for: a brace after it may name one side of a boundary, and is a quantifier
if no letter follows it. -/
def boundary? (flags : Flags) (input : Input) : Option (Atom × Input) :=
  let word := wordOf flags
  let plain : Option (Atom × Input) := some (.test (.boundary word), input)
  match input with
  | '{' :: rest =>
    match skip flags rest with
    | [] => none
    | c :: rest =>
      if !isBoundaryNameChar c then plain
      else
        let name := (c :: rest).takeWhile isBoundaryNameChar
        match skip flags ((c :: rest).dropWhile isBoundaryNameChar) with
        | '}' :: rest =>
          match String.ofList name with
          | "start" => some (.test (.wordStart word), rest)
          | "end" => some (.test (.wordEnd word), rest)
          | "start-half" => some (.test (.wordStartHalf word), rest)
          | "end-half" => some (.test (.wordEndHalf word), rest)
          | _ => none
        | _ => none
  | _ => plain

/-- The escape behind a backslash. -/
def escape? (flags : Flags) : Input → Option (Atom × Input)
  | [] => none
  | c :: rest =>
    let atom := fun a : Atom => some (a, rest)
    match c with
    | 'x' => hexEscape? flags 2 rest
    | 'u' => hexEscape? flags 4 rest
    | 'U' => hexEscape? flags 8 rest
    | 'p' => unicodeClass? flags false rest
    | 'P' => unicodeClass? flags true rest
    | 'd' => (shorthand? flags false digitClass asciiDigit).map (·, rest)
    | 'D' => (shorthand? flags true digitClass asciiDigit).map (·, rest)
    | 's' => (shorthand? flags false blankClass asciiBlank).map (·, rest)
    | 'S' => (shorthand? flags true blankClass asciiBlank).map (·, rest)
    | 'w' => (shorthand? flags false wordClass asciiWord).map (·, rest)
    | 'W' => (shorthand? flags true wordClass asciiWord).map (·, rest)
    | 'a' => atom (.char '\x07' false)
    | 'f' => atom (.char '\x0c' false)
    | 't' => atom (.char '\t' false)
    | 'n' => atom (.char '\n' false)
    | 'r' => atom (.char '\r' false)
    | 'v' => atom (.char '\x0b' false)
    | 'A' => atom (.test .textStart)
    | 'z' => atom (.test .textEnd)
    | 'b' => boundary? flags rest
    | 'B' => atom (.test (.noBoundary (wordOf flags)))
    | '<' => atom (.test (.wordStart (wordOf flags)))
    | '>' => atom (.test (.wordEnd (wordOf flags)))
    | c => if c.toNat < 0x80 ∧ !c.isAlphanum then atom (.char c false) else none

/-! ## Bracketed classes -/

inductive SetOperation where
  | intersection
  | difference
  | symmetricDifference

/-- A class with how deep brackets nest in it. -/
structure Nested where
  cls : Class
  nesting : Nat

def SetOperation.apply (flags : Flags) : SetOperation → Class → Class → Class
  | .intersection, a, b => .both (foldedIf flags a) (foldedIf flags b)
  | .difference, a, b => .minus (foldedIf flags a) (foldedIf flags b)
  | .symmetricDifference, a, b => .oneOf (foldedIf flags a) (foldedIf flags b)

def maxNesting (levels : List Nat) : Nat := levels.foldl max 0

/-- The union of the items read, the last one first. -/
def unionOf (items : List Nested) : Nested :=
  match items with
  | [item] => item
  | [] => ⟨.none, 0⟩
  | items => ⟨.ofList (items.map (·.cls)), maxNesting (items.map (·.nesting)) + 1⟩

/-- Apply the operation that waits for its right side. -/
def completeWith (flags : Flags) (pending : Option (SetOperation × Nested)) (right : Nested) : Nested :=
  match pending with
  | none => right
  | some (operation, left) =>
    ⟨operation.apply flags left.cls right.cls, max left.nesting right.nesting + 1⟩

/-- A named ASCII class behind its opening bracket. -/
def asciiItem? (flags : Flags) : Input → Option (Class × Input)
  | ':' :: rest =>
    let (negated, rest) := match rest with
      | '^' :: rest => (true, rest)
      | rest => (false, rest)
    match rest.dropWhile (· ≠ ':') with
    | ':' :: ']' :: after =>
      (asciiClass? (String.ofList (rest.takeWhile (· ≠ ':')))).map fun cls =>
        (.negatedIf negated (foldedIf flags cls), after)
    | _ => none
  | _ => none

def classAtom? (flags : Flags) : Input → Option (Atom × Input)
  | '\\' :: rest => escape? flags rest
  | c :: rest => some (.char c false, rest)
  | [] => none

def literalCode? (flags : Flags) : Atom → Option Nat
  | .char c _ => if flags.unicode || c.toNat < 0x80 then some c.toNat else none
  | _ => none

def atomClass? (flags : Flags) : Atom → Option Class
  | .cls cls => some cls
  | atom => (literalCode? flags atom).map .single

/-- A character, a class, or a range of characters. -/
def classRange? (flags : Flags) (input : Input) : Option (Class × Input) := do
  let (first, rest) ← classAtom? flags input
  match skip flags rest with
  | [] => none
  | '-' :: afterDash =>
    match skip flags afterDash with
    | ']' :: _ | '-' :: _ => pure (← atomClass? flags first, skip flags rest)
    | afterDash =>
      let (last, rest) ← classAtom? flags afterDash
      let first ← literalCode? flags first
      let last ← literalCode? flags last
      if last < first then none else pure (.ranges [(first, last)], rest)
  | rest => pure (← atomClass? flags first, rest)

/-- The caret that complements a class. -/
def caret (flags : Flags) (input : Input) : Bool × Input :=
  match skip flags input with
  | '^' :: rest => (true, rest)
  | input => (false, input)

/-- A class behind its opening bracket and caret.  `atStart` holds until something other than a
hyphen has been read, and a bracket that closes nothing yet is a character. -/
def classRest? (flags : Flags) (negated : Bool) : Nat → (atStart : Bool) →
    Option (SetOperation × Nested) → List Nested → Input → Option (Nested × Input)
  | 0, _, _, _, _ => none
  | fuel + 1, atStart, pending, items, input =>
    let operate := fun operation rest =>
      classRest? flags negated fuel false
        (some (operation, completeWith flags pending (unionOf items))) [] rest
    match skip flags input with
    | [] => none
    | '[' :: rest =>
      match asciiItem? flags rest with
      | some (cls, rest) => classRest? flags negated fuel false pending (⟨cls, 0⟩ :: items) rest
      | none =>
        let (innerNegated, rest) := caret flags rest
        match classRest? flags innerNegated fuel true none [] rest with
        | some (inner, rest) => classRest? flags negated fuel false pending (inner :: items) rest
        | none => none
    | ']' :: rest =>
      if atStart && items.isEmpty then
        classRest? flags negated fuel false pending [⟨.single ']'.toNat, 0⟩] rest
      else
        let whole := completeWith flags pending (unionOf items)
        some (⟨.negatedIf negated (foldedIf flags whole.cls), whole.nesting + 1⟩, rest)
    | '&' :: '&' :: rest => operate .intersection rest
    | '~' :: '~' :: rest => operate .symmetricDifference rest
    | '-' :: rest =>
      if atStart then classRest? flags negated fuel true pending (⟨.single '-'.toNat, 0⟩ :: items) rest
      else match rest with
        | '-' :: rest => operate .difference rest
        | _ =>
          match classRange? flags ('-' :: rest) with
          | some (cls, rest) => classRest? flags negated fuel false pending (⟨cls, 0⟩ :: items) rest
          | none => none
    | input =>
      match classRange? flags input with
      | some (cls, rest) => classRest? flags negated fuel false pending (⟨cls, 0⟩ :: items) rest
      | none => none

/-- A class behind its opening bracket.  Without Unicode it must stay within ASCII. -/
def class? (flags : Flags) (input : Input) : Option (Nested × Input) :=
  let (negated, rest) := caret flags input
  match classRest? flags negated (input.length + 1) true none [] rest with
  | some (nested, rest) => if flags.unicode || nested.cls.isAscii then some (nested, rest) else none
  | none => none

/-! ## Quantifiers -/

/-- A number below `2^32`, blanks around it allowed. -/
def decimal? (input : Input) : Option (Nat × Input) :=
  let input := input.dropWhile Text.isBlank
  let digits := input.takeWhile Char.isDigit
  let value := digits.foldl (fun n c => 10 * n + (c.toNat - 48)) 0
  if digits.isEmpty ∨ Nat.pow 2 32 ≤ value then none
  else some (value, (input.dropWhile Char.isDigit).dropWhile Text.isBlank)

/-- The bounds behind an opening brace. -/
def bounds? (flags : Flags) (input : Input) : Option ((Nat × Option Nat) × Input) := do
  let (least, rest) ← decimal? (skip flags input)
  match rest with
  | '}' :: rest => pure ((least, some least), rest)
  | ',' :: rest =>
    match skip flags rest with
    | '}' :: rest => pure ((least, none), rest)
    | rest =>
      match ← decimal? rest with
      | (most, '}' :: rest) => if most < least then none else pure ((least, some most), rest)
      | _ => none
  | _ => none

/-! ## Groups and sequences -/

/-- An expression read, how deep it nests, and whether a quantifier may follow it. -/
structure Piece where
  expr : Expr Class Assertion
  nesting : Nat := 0
  quantifiable : Bool := true

def Atom.piece? (flags : Flags) : Atom → Option Piece
  | .cls set => some { expr := .char set }
  | .test assertion => some { expr := .test assertion }
  | .char c twoDigits =>
    if flags.unicode ∨ c.toNat < 0x80 then some { expr := .char (foldedIf flags (.single c.toNat)) }
    else if twoDigits ∨ flags.ignoreCase then none
    else some { expr := .char (.single c.toNat) }

def lineBreaks (flags : Flags) : Class :=
  .ranges (if flags.anyLineEnd then [(0x0A, 0x0A), (0x0D, 0x0D)] else [(0x0A, 0x0A)])

def dot? (flags : Flags) : Option Piece :=
  if !flags.unicode then none
  else some { expr := .char (if flags.dotAll then .any else .complement (lineBreaks flags)) }

def startAssertion (flags : Flags) : Assertion :=
  if !flags.multiLine then .textStart else if flags.anyLineEnd then .anyLineStart else .lineStart

def endAssertion (flags : Flags) : Assertion :=
  if !flags.multiLine then .textEnd else if flags.anyLineEnd then .anyLineEnd else .lineEnd

/-- The pieces, the last one first, one after another. -/
def concatenated (pieces : List Piece) : Piece :=
  match pieces with
  | [] => { expr := .empty }
  | [piece] => piece
  | pieces =>
    { expr := pieces.foldl (fun rest piece => .concat piece.expr rest) .empty
      nesting := maxNesting (pieces.map (·.nesting)) + 1 }

/-- One of the branches, the last one first. -/
def alternated (branches : List Piece) (last : Piece) : Piece :=
  match branches with
  | [] => last
  | branches =>
    { expr := branches.foldl (fun rest branch => .alternate branch.expr rest) last.expr
      nesting := maxNesting (last.nesting :: branches.map (·.nesting)) + 1 }

/-- Quantify the piece read last. -/
def quantified? (least : Nat) (most : Option Nat) : List Piece → Option (List Piece)
  | piece :: before =>
    if piece.quantifiable then
      some ({ expr := .repeated piece.expr least most, nesting := piece.nesting + 1 } :: before)
    else none
  | [] => none

/-- What follows a quantifier: a question mark only changes which match is preferred. -/
def afterQuantifier : Input → Input
  | '?' :: rest => rest
  | rest => rest

def setFlag? (flags : Flags) (value : Bool) : Char → Option Flags
  | 'i' => some { flags with ignoreCase := value }
  | 'm' => some { flags with multiLine := value }
  | 's' => some { flags with dotAll := value }
  | 'u' => some { flags with unicode := value }
  | 'R' => some { flags with anyLineEnd := value }
  | 'x' => some { flags with verbose := value }
  | 'U' => some flags
  | _ => none

/-- Flag letters up to a colon or a closing bracket.  None may be repeated, and one minus sign
turns off the flags behind it. -/
def flagLetters? (flags : Flags) (seen : List Char) : Input → Option (Flags × List Char × Input)
  | [] => none
  | c :: rest =>
    if c = ':' ∨ c = ')' then
      if seen.head? = some '-' then none else some (flags, seen, c :: rest)
    else if seen.contains c then none
    else if c = '-' then flagLetters? flags ('-' :: seen) rest
    else match setFlag? flags (!seen.contains '-') c with
      | some flags => flagLetters? flags (c :: seen) rest
      | none => none

def alphabeticClass : Class := (property? "alphabetic").getD .none

def isNameChar (isFirst : Bool) (c : Char) : Bool :=
  c = '_' || (if isFirst then alphabeticClass.contains c.toNat
    else c = '.' || c = '[' || c = ']' || Text.isAlphanumeric c)

/-- A group's name behind the angle bracket. -/
def groupName? (input : Input) : Option (Input × Input) :=
  let name := input.takeWhile (· ≠ '>')
  match name, input.dropWhile (· ≠ '>') with
  | first :: others, _ :: rest =>
    if isNameChar true first && others.all (isNameChar false) then some (name, rest) else none
  | _, _ => none

/-- What an opening bracket begins: flags for the rest of the group, or a group. -/
inductive Opening where
  | flags (flags : Flags)
  | group (flags : Flags) (name : Option Input)

def opening? (flags : Flags) (input : Input) : Option (Opening × Input) :=
  match skip flags input with
  | '?' :: '=' :: _ | '?' :: '!' :: _ | '?' :: '<' :: '=' :: _ | '?' :: '<' :: '!' :: _ => none
  | '?' :: 'P' :: '<' :: rest | '?' :: '<' :: rest =>
    (groupName? rest).map fun (name, rest) => (.group flags (some name), rest)
  | '?' :: rest =>
    match flagLetters? flags [] rest with
    | some (inner, seen, ')' :: rest) => if seen.isEmpty then none else some (.flags inner, rest)
    | some (inner, _, _ :: rest) => some (.group inner none, rest)
    | _ => none
  | input => some (.group flags none, input)

/-- What a sequence of alternatives yields: the expression, the group names met so far, and the
input from the closing bracket, or the end, on. -/
abbrev Sequence := Piece × List Input × Input

/-- Alternatives up to the closing bracket of the group they are in, or the end. -/
def sequence? : Nat → Flags → List Input → (branches current : List Piece) → Input → Option Sequence
  | 0, _, _, _, _, _ => none
  | fuel + 1, flags, names, branches, current, input =>
    let push := fun (piece : Piece) rest => sequence? fuel flags names branches (piece :: current) rest
    let quantify := fun least most rest =>
      match quantified? least most current with
      | some current => sequence? fuel flags names branches current (afterQuantifier rest)
      | none => none
    match skip flags input with
    | [] => some (alternated branches (concatenated current), names, [])
    | ')' :: rest => some (alternated branches (concatenated current), names, ')' :: rest)
    | '|' :: rest => sequence? fuel flags names (concatenated current :: branches) [] rest
    | '(' :: rest =>
      match opening? flags rest with
      | none => none
      | some (.flags inner, rest) =>
        sequence? fuel inner names branches ({ expr := .empty, quantifiable := false } :: current) rest
      | some (.group inner name, rest) =>
        if name.any names.contains then none
        else match sequence? fuel inner (name.toList ++ names) [] [] rest with
          | some (piece, names, ')' :: rest) =>
            sequence? fuel flags names branches ({ expr := piece.expr, nesting := piece.nesting + 1 } :: current) rest
          | _ => none
    | '[' :: rest =>
      match class? flags rest with
      | some (nested, rest) => push { expr := .char nested.cls, nesting := nested.nesting } rest
      | none => none
    | '?' :: rest => quantify 0 (some 1) rest
    | '*' :: rest => quantify 0 none rest
    | '+' :: rest => quantify 1 none rest
    | '{' :: rest =>
      match bounds? flags rest with
      | some ((least, most), rest) => quantify least most (skip flags rest)
      | none => none
    | '.' :: rest => (dot? flags).bind (push · rest)
    | '^' :: rest => push { expr := .test (startAssertion flags) } rest
    | '$' :: rest => push { expr := .test (endAssertion flags) } rest
    | '\\' :: rest =>
      match escape? flags rest with
      | some (atom, rest) => (atom.piece? flags).bind (push · rest)
      | none => none
    | c :: rest => ((Atom.char c false).piece? flags).bind (push · rest)

/-- How deep groups, quantifiers, sequences and brackets may nest in each other. -/
def maxPatternNesting : Nat := 250

/-! ## Size

A bounded repetition stands for that many copies, and an expression may not have more states
than fit the memory a pattern is granted. -/

/-- An estimate of the states of a class: one for its ASCII part, and two for each range beyond,
since those members take several bytes. -/
def Class.states : Class → Nat
  | .none => 1
  | .ranges rs => max 1 (2 * (rs.filter fun (_, last) => 0x80 ≤ last).length)
  | .either a b | .both a b => max a.states b.states
  | .complement a => max 8 a.states
  | .folded a | .foldedAscii a => a.states

def Expr.states : Expr Class Assertion → Nat
  | .empty => 0
  | .char cls => cls.states
  | .test _ => 1
  | .concat a b => a.states + b.states
  | .alternate a b => a.states + b.states + 1
  | .repeated a least most => a.states * max 1 (most.getD least) + max 1 (most.getD least - least)

def maxStates : Nat := 10 * Nat.pow 2 20 / 32

/-- Why a text is no pattern. -/
inductive Fault where
  | malformed
  | tooLarge
deriving DecidableEq, Repr

def readExpr (source : String) : Except Fault (Expr Class Assertion) :=
  let input := source.toList
  match sequence? (input.length + 1) {} [] [] [] input with
  | some (piece, _, []) =>
    if maxPatternNesting < piece.nesting then .error .malformed
    else if maxStates < piece.expr.states then .error .tooLarge
    else .ok piece.expr
  | _ => .error .malformed

end SchemaTypes.Pattern
