import SchemaTypes.Text.Alphanumeric
import SchemaTypes.Text.LetterCase
/-!
# Identifiers

The identifier of a property joins the words of its name in camel case.  A word is a longest
stretch of letters and digits; only its first character changes case.  An identifier does not
start with an ASCII digit: an underscore goes before one.  A name without words has none.
-/
namespace SchemaTypes.Naming

/-- The words of a text, given the word being read, last character first. -/
def wordsFrom (current : List Char) : List Char → List (List Char)
  | [] => if current.isEmpty then [] else [current.reverse]
  | c :: rest =>
    if Text.isAlphanumeric c then wordsFrom (c :: current) rest
    else if current.isEmpty then wordsFrom [] rest
    else current.reverse :: wordsFrom [] rest

def words (name : List Char) : List (List Char) := wordsFrom [] name

def mapFirst (f : Char → List Char) : List Char → List Char
  | [] => []
  | c :: rest => f c ++ rest

def camelCase : List (List Char) → List Char
  | [] => []
  | first :: others => mapFirst Text.lowercase first ++ others.flatMap (mapFirst Text.uppercase)

def startsWithDigit : List Char → Bool
  | c :: _ => c.isDigit
  | [] => false

def guardDigit (identifier : List Char) : List Char :=
  if startsWithDigit identifier then '_' :: identifier else identifier

/-- The identifier of a name, if the name has a letter or a digit. -/
def identifier? (name : String) : Option String :=
  match words name.toList with
  | [] => none
  | words => some (String.ofList (guardDigit (camelCase words)))

theorem words_nil : words [] = [] := rfl

example : identifier? "1st place" = some "_1stPlace" ∧ identifier? "-- !" = none := by decide +kernel

end SchemaTypes.Naming
