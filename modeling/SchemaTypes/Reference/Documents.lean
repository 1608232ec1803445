import SchemaTypes.Reference.Pointer
/-!
# Documents

The documents references may point into, in the order they were stored.  Storing a document
under a key in use takes the old one out and puts the new one last.
-/
namespace SchemaTypes.Reference

structure Document where
  key : String
  namespaceName : String
  value : Json

abbrev Documents := List Document

namespace Documents

def insert (documents : Documents) (document : Document) : Documents :=
  documents.filter (·.key ≠ document.key) ++ [document]

def get? (documents : Documents) (key : String) : Option Document :=
  documents.find? (·.key = key)

theorem get?_insert_self (documents : Documents) (document : Document) :
    (documents.insert document).get? document.key = some document := by
  have h : (documents.filter (·.key ≠ document.key)).find? (·.key = document.key) = none := by
    simp [List.find?_eq_none]
  simp only [insert, get?, List.find?_append, h]
  simp

theorem get?_insert_of_ne (documents : Documents) (document : Document) {key : String}
    (h : key ≠ document.key) : (documents.insert document).get? key = documents.get? key := by
  have hs : ∀ other : Document, (!decide (other.key = document.key) && decide (other.key = key))
      = decide (other.key = key) := by
    intro other
    by_cases hk : other.key = key <;> simp [hk, h]
  simp [insert, get?, List.find?_append, List.find?_filter, hs, Ne.symm h]

def fileName (key : String) : List Char := Text.lastPart '/' key.toList

/-- Whether a document's `$id`, hash signs at its end left out, is the reference. -/
def hasId (document : Document) (reference : String) : Bool :=
  match document.value.stringAt? "$id" with
  | some id => Text.trimEnd '#' id.toList = reference.toList
  | none => false

/-- The document a reference names: by key, else by file name, else by `$id`. -/
def locate? (documents : Documents) (reference : String) : Option Document :=
  documents.get? reference
    <|> documents.find? (fun document => fileName document.key = fileName reference)
    <|> documents.find? (hasId · reference)

end Documents
end SchemaTypes.Reference
