/-!
# Tables of a TOML document

A document is a list of statements: pairs of a key and a value, and headers that say which table
the pairs after them belong to.  `Document.ofStatements?` builds the table they describe and
refuses what defines a key twice or extends what is closed.

A table may be extended depending on its origin.  One that a header names is complete: no
second header may name it, and no dotted key may add to it.  One implied by a longer header
may still get a header of its own.  One made by a dotted key takes further dotted keys only.

Of values only booleans are kept; the settings need no others.
-/
namespace SchemaTypes.Toml

inductive Origin where
  | header
  | implied
  | dotted
deriving DecidableEq, Repr

inductive Entry where
  | boolean (value : Bool)
  /-- A value that is no boolean. -/
  | other
  | table (origin : Origin) (entries : List (String × Entry))
  /-- An array of tables; only the last one can still change. -/
  | tables (last : List (String × Entry))

abbrev Entries := List (String × Entry)

inductive Statement where
  /-- A value under a key, behind the path that a dotted key spells. -/
  | pair (path : List String) (key : String) (value : Entry)
  | table (path : List String) (key : String)
  /-- One more table of an array. -/
  | tables (path : List String) (key : String)

namespace Entries

/-- Put an entry in the place of the one under a key. -/
def replace (entries : Entries) (key : String) (entry : Entry) : Entries :=
  entries.map fun (name, old) => (name, if name = key then entry else old)

/-- Change the entries a path leads to, given the origin of the table they belong to.  Missing
tables on the way are made, as `made` says. -/
def descend (made : Origin) (change : Origin → Entries → Option Entries) :
    (origin : Origin) → List String → Entries → Option Entries
  | origin, [], entries => change origin entries
  | _, key :: path, entries =>
    match entries.lookup key with
    | none => do return entries ++ [(key, .table made (← descend made change made path []))]
    | some (.table origin inner) => do
      if made = .dotted ∧ origin = .header then none
      else return entries.replace key (.table origin (← descend made change origin path inner))
    | some (.tables last) => do
      return entries.replace key (.tables (← descend made change .header path last))
    | some _ => none

/-- Add a pair.  A dotted key has to end in a table that dotted keys made. -/
def insertPair (entries : Entries) (path : List String) (key : String) (value : Entry) :
    Option Entries :=
  let insert := fun (origin : Origin) (inner : Entries) =>
    if (¬ path.isEmpty ∧ origin ≠ .dotted) ∨ (inner.lookup key).isSome then none
    else some (inner ++ [(key, value)])
  entries.descend .dotted insert .header path

/-- Open the table a header names. -/
def openTable (key : String) (entries : Entries) : Option Entries :=
  match entries.lookup key with
  | none => some (entries ++ [(key, .table .header [])])
  | some (.table .implied inner) => some (entries.replace key (.table .header inner))
  | some _ => none

/-- Start one more table of an array. -/
def openTables (key : String) (entries : Entries) : Option Entries :=
  match entries.lookup key with
  | none => some (entries ++ [(key, .tables [])])
  | some (.tables _) => some (entries.replace key (.tables []))
  | some _ => none

end Entries

/-- What the statements so far describe, and the header that new pairs belong to. -/
structure Document where
  entries : Entries := []
  header : List String := []

namespace Document

def add (document : Document) : Statement → Option Document
  | .pair path key value => do
    let insert := fun _ (inner : Entries) => inner.insertPair path key value
    return { document with
      entries := ← document.entries.descend .implied insert .header document.header }
  | .table path key => do
    let entries ← document.entries.descend .implied (fun _ => Entries.openTable key) .header path
    return { entries, header := path ++ [key] }
  | .tables path key => do
    let entries ← document.entries.descend .implied (fun _ => Entries.openTables key) .header path
    return { entries, header := path ++ [key] }

def ofStatements? (statements : List Statement) : Option Document := statements.foldlM add {}

end Document
end SchemaTypes.Toml
