import SchemaTypes.Json.Basic
import SchemaTypes.Binary64.Decimal
/-!
# JSON text

`Json.text` writes a value without blanks, members in order.  Inside strings only the
quote, the backslash and the control characters below U+0020 are escaped.
`Json.indentedText` writes the same with one member or item a line, two blanks a level.
-/
namespace SchemaTypes

def Number.text : Number → String
  | .integer i => toString i
  | .float x => x.text

namespace Json

def hexDigit (n : Nat) : Char := "0123456789abcdef".toList.getD n '0'

def escapeChar (c : Char) : List Char :=
  if c = '"' then ['\\', '"']
  else if c = '\\' then ['\\', '\\']
  else if c = '\x08' then ['\\', 'b']
  else if c = '\x0c' then ['\\', 'f']
  else if c = '\n' then ['\\', 'n']
  else if c = '\r' then ['\\', 'r']
  else if c = '\t' then ['\\', 't']
  else if c.toNat < 0x20 then ['\\', 'u', '0', '0', hexDigit (c.toNat / 16), hexDigit (c.toNat % 16)]
  else [c]

def quoted (text : String) : String := String.ofList ('"' :: text.toList.flatMap escapeChar ++ ['"'])

/-- The opening and the closing of an object. -/
def openBrace : String := "\x7b"
def closeBrace : String := "\x7d"

mutual
def text : Json → String
  | .null => "null"
  | .bool true => "true"
  | .bool false => "false"
  | .number n => n.text
  | .string s => quoted s
  | .array items => "[" ++ ",".intercalate (itemTexts items) ++ "]"
  | .object members => openBrace ++ ",".intercalate (memberTexts members) ++ closeBrace
def itemTexts : List Json → List String
  | [] => []
  | item :: rest => item.text :: itemTexts rest
def memberTexts : List (String × Json) → List String
  | [] => []
  | (name, value) :: rest => (quoted name ++ ":" ++ value.text) :: memberTexts rest
end

/-- The line break before a line indented by `level` steps. -/
def lineBreak (level : Nat) : String := String.ofList ('\n' :: List.replicate (2 * level) ' ')

/-- The lines of a container between its brackets; an empty one stays on its line. -/
def enclosed (level : Nat) (opening closing : String) (lines : List String) : String :=
  if lines.isEmpty then opening ++ closing
  else opening ++ lineBreak (level + 1) ++ ("," ++ lineBreak (level + 1)).intercalate lines
    ++ lineBreak level ++ closing

mutual
def indentedAt (level : Nat) : Json → String
  | .array items => enclosed level "[" "]" (indentedItems (level + 1) items)
  | .object members => enclosed level openBrace closeBrace (indentedMembers (level + 1) members)
  | value => value.text
def indentedItems (level : Nat) : List Json → List String
  | [] => []
  | item :: rest => indentedAt level item :: indentedItems level rest
def indentedMembers (level : Nat) : List (String × Json) → List String
  | [] => []
  | (name, value) :: rest =>
    (quoted name ++ ": " ++ indentedAt level value) :: indentedMembers level rest
end

def indentedText (value : Json) : String := indentedAt 0 value

end Json
end SchemaTypes
