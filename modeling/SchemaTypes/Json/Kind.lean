import SchemaTypes.Json.Basic
/-!
# Kinds of values

The seven words of the `type` keyword.  A value has one most specific kind, and the
only inclusion among kinds is that every integer is a number.
-/
namespace SchemaTypes

inductive Kind where
  | null
  | boolean
  | integer
  | number
  | string
  | array
  | object
deriving DecidableEq, Repr

namespace Kind

def all : List Kind := [.null, .boolean, .integer, .number, .string, .array, .object]

def keyword : Kind → String
  | .null => "null"
  | .boolean => "boolean"
  | .integer => "integer"
  | .number => "number"
  | .string => "string"
  | .array => "array"
  | .object => "object"

def ofKeyword? (word : String) : Option Kind := all.find? (·.keyword == word)

/-- The most specific kind of a value.  A float is a number, even `1.0`. -/
def ofValue : Json → Kind
  | .null => .null
  | .bool _ => .boolean
  | .number (.integer _) => .integer
  | .number (.float _) => .number
  | .string _ => .string
  | .array _ => .array
  | .object _ => .object

/-- Whether every value of kind `other` is also of this kind. -/
def includes (kind other : Kind) : Bool :=
  other == kind || (kind == .number && other == .integer)

def accepts (kind : Kind) (value : Json) : Bool := kind.includes (ofValue value)

theorem ofKeyword?_keyword (kind : Kind) : ofKeyword? kind.keyword = some kind := by
  cases kind <;> decide

theorem includes_self (kind : Kind) : kind.includes kind = true := by simp [includes]

end Kind
end SchemaTypes
