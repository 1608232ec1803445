import SchemaTypes.Check.Basic
import SchemaTypes.Text.Blank
/-!
# Filters

A filter turns a value into another before the remaining checks see it.  It has a name, by
which schemas ask for it, and the kinds it works on; the checks leave values of other kinds
alone.  Registering under a name in use replaces the old filter and puts the new one last.
-/
namespace SchemaTypes

structure Filter where
  name : String
  accepts : List Kind
  apply : FilterFunction

abbrev Filters := List Filter

namespace Filters

def register (filters : Filters) (filter : Filter) : Filters :=
  filters.filter (·.name ≠ filter.name) ++ [filter]

def get? (filters : Filters) (name : String) : Option Filter := filters.find? (·.name = name)

def names (filters : Filters) : List String := filters.map (·.name)

/-- Takes the blanks off both ends of a string. -/
def trim : Filter where
  name := "trim"
  accepts := [.string]
  apply value _ := .ok <| match value with
    | .string text => .string (Text.trim text)
    | value => value

/-- Null, and a string, an array or an object without content. -/
def isEmpty : Json → Bool
  | .null => true
  | .string text => text.isEmpty
  | .array items => items.isEmpty
  | .object members => members.isEmpty
  | _ => false

/-- Takes the empty items out of an array. -/
def notEmpty : Filter where
  name := "notEmpty"
  accepts := [.array]
  apply value _ := .ok <| match value with
    | .array items => .array (items.filter (!isEmpty ·))
    | value => value

def standard : Filters := [trim, notEmpty]

theorem get?_register (filters : Filters) (filter : Filter) :
    (filters.register filter).get? filter.name = some filter := by
  have h : (filters.filter (·.name ≠ filter.name)).find? (·.name = filter.name) = none := by
    simp [List.find?_eq_none]
  simp only [register, get?, List.find?_append, h]
  simp

end Filters
end SchemaTypes
