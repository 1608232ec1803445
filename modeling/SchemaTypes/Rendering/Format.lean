import SchemaTypes.Rendering.Listing
import SchemaTypes.Rendering.Outline
/-!
# Output formats

The ways to write a type, by the name a user asks for them and the extension of their files.
-/
namespace SchemaTypes

inductive Format where
  | outline
  | json
deriving DecidableEq, Repr

namespace Format

def all : List Format := [.outline, .json]

def name : Format → String
  | .outline => "outline"
  | .json => "json"

def extension : Format → String
  | .outline => "txt"
  | .json => "json"

def ofName? (name : String) : Option Format := all.find? (·.name = name)

def render : Format → Graph → TypeId → String
  | .outline => Outline.render
  | .json => Listing.render

theorem ofName?_name (format : Format) : ofName? format.name = some format := by
  cases format <;> decide

end Format
end SchemaTypes
