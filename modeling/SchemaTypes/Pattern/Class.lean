import SchemaTypes.Text.Ranges
import SchemaTypes.Pattern.CaseOrbits
import SchemaTypes.Pattern.Categories
import SchemaTypes.Pattern.Properties
import SchemaTypes.Pattern.Scripts
/-!
# Character classes

A class is kept as it is written, an expression over sets of characters, and `contains`
evaluates it for one code point.  Folding a class adds whatever differs from a member by case
only.
-/
namespace SchemaTypes.Pattern

open SchemaTypes.Text

inductive Class where
  | none
  | ranges (ranges : Ranges)
  | either (a b : Class)
  | both (a b : Class)
  | complement (a : Class)
  /-- The class and all characters alike with one of its members. -/
  | folded (a : Class)
  /-- The class and the ASCII letters that differ from a member by case. -/
  | foldedAscii (a : Class)

/-- An ASCII letter in both cases; any other code point alone. -/
def asciiOrbit (code : Nat) : List Nat :=
  if 0x41 ≤ code ∧ code ≤ 0x5A then [code, code + 0x20]
  else if 0x61 ≤ code ∧ code ≤ 0x7A then [code - 0x20, code]
  else [code]

namespace Class

def contains : Class → Nat → Bool
  | none, _ => false
  | ranges rs, code => rs.contains code
  | either a b, code => a.contains code || b.contains code
  | both a b, code => a.contains code && b.contains code
  | complement a, code => !a.contains code
  | folded a, code => (orbit code).any a.contains
  | foldedAscii a, code => (asciiOrbit code).any a.contains

def single (code : Nat) : Class := ranges [(code, code)]

def any : Class := ranges [(0, 0x10FFFF)]

def ofList (classes : List Class) : Class := classes.foldr either none

def minus (a b : Class) : Class := both a (complement b)

def oneOf (a b : Class) : Class := either (minus a b) (minus b a)

/-- The class, or its complement if `negated`. -/
def negatedIf (negated : Bool) (a : Class) : Class := if negated then complement a else a

/-- Whether no byte above the ASCII range is a member. -/
def isAscii (a : Class) : Bool := (List.range 128).all fun k => !a.contains (128 + k)

end Class

/-! ## Named classes -/

def hexDigitValue (c : Char) : Nat :=
  if c.isDigit then c.toNat - 48 else c.toNat - 55

/-- Read one table entry: `41` or `41-5A`. -/
def readRange (entry : List Char) : Nat × Nat :=
  let value := fun cs : List Char => cs.foldl (fun n c => 16 * n + hexDigitValue c) 0
  let first := entry.takeWhile (· ≠ '-')
  let last := (entry.dropWhile (· ≠ '-')).drop 1
  (value first, value (if last.isEmpty then first else last))

/-- Cut at blanks and line breaks, which may come in a row. -/
def words (current : List Char) : List Char → List (List Char)
  | [] => [current.reverse]
  | c :: rest =>
    if c = ' ' ∨ c = '\n' then current.reverse :: words [] rest else words (c :: current) rest

def readRanges (table : String) : Ranges :=
  ((words [] table.toList).filter (!·.isEmpty)).map readRange

def tabled (table : String) : Class := .ranges (readRanges table)

def lookUp? (tables : List (List String × String)) (name : String) : Option Class :=
  (tables.find? (·.1.contains name)).map fun entry => tabled entry.2

def categoriesWhere (keep : String → Bool) : Class :=
  .ofList ((categories.filter fun entry => entry.1.any keep).map fun entry => tabled entry.2)

/-- Every code point with a category; surrogates and unassigned code points have none. -/
def assigned : Class := categoriesWhere fun _ => true

/-- A general category, or a group of them, by its loose name. -/
def category? (name : String) : Option Class :=
  if name = "any" then some .any
  else if name = "assigned" then some assigned
  else if name = "ascii" then some (.ranges [(0, 0x7F)])
  else if name = "cn" ∨ name = "unassigned" then some (.complement assigned)
  else if name = "cs" ∨ name = "surrogate" then some .none
  else if name = "c" ∨ name = "other" then
    some (.either (.complement assigned) (categoriesWhere (["cc", "cf", "co"].contains ·)))
  else if name = "lc" ∨ name = "l&" ∨ name = "casedletter" then
    some (categoriesWhere (["lu", "ll", "lt"].contains ·))
  else match lookUp? categories name with
    | some cls => some cls
    | none =>
      (categoryGroups.find? (·.1.contains name)).map fun (_, letter) =>
        categoriesWhere fun short => short.length = 2 && short.toList.head? = some letter

def script? (name : String) : Option Class := lookUp? scripts name

def property? (name : String) : Option Class := lookUp? properties name

/-- A name as it is compared: without blanks, hyphens, underscores, characters beyond ASCII and
a leading `is`, and in lower case. -/
def looseName (name : List Char) : String :=
  let startsWithIs := (name.take 2).map Char.toLower = ['i', 's']
  let kept := ((if startsWithIs then name.drop 2 else name).filter fun c =>
    c ≠ ' ' ∧ c ≠ '_' ∧ c ≠ '-' ∧ c.toNat < 0x80).map Char.toLower
  String.ofList (if startsWithIs ∧ kept = ['c'] then ['i', 's', 'c'] else kept)

/-- The class of a bare name: a property, a category or a script. -/
def namedClass? (name : List Char) : Option Class :=
  let loose := looseName name
  let property := if loose = "cf" ∨ loose = "sc" ∨ loose = "lc" then none else property? loose
  property <|> category? loose <|> script? loose

/-- The class of a name and a value, such as `Script=Greek`. -/
def valuedClass? (name value : List Char) : Option Class :=
  let loose := looseName name
  if loose = "gc" ∨ loose = "generalcategory" then category? (looseName value)
  else if loose = "sc" ∨ loose = "script" ∨ loose = "scx" ∨ loose = "scriptextensions" then
    script? (looseName value)
  else none

def wordClass : Class := tabled wordText

def blankClass : Class := (property? "space").getD .none

def digitClass : Class := (category? "nd").getD .none

def asciiWord : Class := .ranges [(0x30, 0x39), (0x41, 0x5A), (0x5F, 0x5F), (0x61, 0x7A)]

def asciiBlank : Class := .ranges [(0x09, 0x0D), (0x20, 0x20)]

def asciiDigit : Class := .ranges [(0x30, 0x39)]

/-- The bracketed ASCII classes such as `[:alpha:]`. -/
def asciiClass? (name : String) : Option Class :=
  match name with
  | "alnum" => some (.ranges [(0x30, 0x39), (0x41, 0x5A), (0x61, 0x7A)])
  | "alpha" => some (.ranges [(0x41, 0x5A), (0x61, 0x7A)])
  | "ascii" => some (.ranges [(0, 0x7F)])
  | "blank" => some (.ranges [(0x09, 0x09), (0x20, 0x20)])
  | "cntrl" => some (.ranges [(0, 0x1F), (0x7F, 0x7F)])
  | "digit" => some asciiDigit
  | "graph" => some (.ranges [(0x21, 0x7E)])
  | "lower" => some (.ranges [(0x61, 0x7A)])
  | "print" => some (.ranges [(0x20, 0x7E)])
  | "punct" => some (.ranges [(0x21, 0x2F), (0x3A, 0x40), (0x5B, 0x60), (0x7B, 0x7E)])
  | "space" => some asciiBlank
  | "upper" => some (.ranges [(0x41, 0x5A)])
  | "word" => some asciiWord
  | "xdigit" => some (.ranges [(0x30, 0x39), (0x41, 0x46), (0x61, 0x66)])
  | _ => none

end SchemaTypes.Pattern
