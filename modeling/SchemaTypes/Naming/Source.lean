import SchemaTypes.Naming.ClassName
/-!
# Sources

A document enters a run under a key that references use, with the namespace and the class name
of its top-level type.  For a file the key is the file's name and the class is named after the
name's stem.
-/
namespace SchemaTypes

structure Source where
  key : String
  namespaceName : String
  className : String
deriving DecidableEq, Repr

namespace Source

/-- The last segment of a path, blanks and `.` left out; `..` and a bare root name no file. -/
def fileName? (path : List Char) : Option (List Char) :=
  match ((Text.splitAt '/' path).filter fun part => part ≠ [] ∧ part ≠ ['.']).getLast? with
  | some name => if name = ['.', '.'] then none else some name
  | none => none

/-- A file name up to its last dot; a dot that leads the name does not end the stem. -/
def stem (name : List Char) : List Char :=
  match name.reverse.dropWhile (· ≠ '.') with
  | _ :: before => if before.isEmpty then name else before.reverse
  | [] => name

def ofPath (path namespaceName : String) : Source :=
  let name := (fileName? path.toList).getD []
  { key := String.ofList name
    namespaceName
    className := Naming.standard (String.ofList (stem name)) .null false "" }

end Source
end SchemaTypes
