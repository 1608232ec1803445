import SchemaTypes.Digest.Blake3
import SchemaTypes.Json.Writer
import SchemaTypes.Naming.Identifier
import SchemaTypes.Text.Replace
/-!
# Class names

A type is named after the `$id` or the title of its node, else after the property that holds
it.  Inside another type the name carries the enclosing class and eight digits of the hash of the node's
text, so that two nodes of one name stay apart.  Any function of the same four facts can stand
in for this strategy.
-/
namespace SchemaTypes.Naming

/-- What a class name may depend on: the property a node was found under, the node, whether it
is a branch of an object's composition, and the enclosing class, empty at document level. -/
abbrev Strategy := (property : String) → (node : Json) → (merged : Bool) → (enclosing : String) → String

/-- The last path segment of an `$id` up to its first dot, without hash signs at the end. -/
def idBase (id : List Char) : List Char :=
  Text.firstPart '.' (Text.lastPart '/' (Text.trimEnd '#' id))

/-- The identifier with its first letter in upper case, without underscores before it. -/
def pascalCase (name : String) : String :=
  let identifier := (identifier? name).getD "Type"
  match identifier.toList.dropWhile (· = '_') with
  | [] => "Type"
  | letters => String.ofList (mapFirst Text.uppercase letters)

def base (property : String) (node : Json) : String :=
  match node.stringAt? "$id" with
  | some id => String.ofList (idBase id.toList)
  | none => (node.stringAt? "title").getD property

/-- The first eight digits of the hash of a node's text. -/
def fingerprint (node : Json) : String := String.ofList ((Blake3.hex node.text).toList.take 8)

def standard : Strategy := fun property node merged enclosing =>
  let name := pascalCase (base property node)
  if enclosing.isEmpty then name
  else enclosing ++ (if merged then "_Merged_" else "_") ++ name ++ fingerprint node

end SchemaTypes.Naming
