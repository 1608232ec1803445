/-!
# Type labels

The type a property is declared with: one name, or several for a union.  A primitive type goes
by its keyword, an object by its class name.  Whether null belongs to it may be left open.
-/
namespace SchemaTypes

inductive Nullability where
  | unknown
  | nullable
  | nonNullable
deriving DecidableEq, Repr

def Nullability.name : Nullability → String
  | .unknown => "unknown"
  | .nullable => "nullable"
  | .nonNullable => "non-nullable"

structure TypeLabel where
  names : List String
  nullability : Nullability := .unknown
deriving DecidableEq, Repr

namespace TypeLabel

def single (name : String) : TypeLabel := { names := [name] }

/-- Append a name that is not there yet. -/
def addName (names : List String) (name : String) : List String :=
  if names.contains name then names else names ++ [name]

/-- The names without repetitions, first occurrences in order. -/
def distinct (names : List String) : List String := names.foldl addName []

def union (names : List String) : TypeLabel := { names := distinct names }

def isUnion (label : TypeLabel) : Bool := 1 < label.names.length

def contains (label : TypeLabel) (name : String) : Bool := label.names.contains name

/-- The names with bars between them, and null last if it is allowed and not named. -/
def text (label : TypeLabel) : String :=
  "|".intercalate label.names ++
    (if label.nullability = .nullable ∧ ¬ label.contains "null" then "|null" else "")

theorem mem_addName {names : List String} {name x : String} :
    x ∈ addName names name ↔ x ∈ names ∨ x = name := by
  unfold addName; split <;> simp_all

theorem nodup_addName {names : List String} (name : String) (h : names.Nodup) :
    (addName names name).Nodup := by
  unfold addName
  split
  · exact h
  · rename_i hn
    rw [List.nodup_append]
    refine ⟨h, by simp, fun a ha b hb => ?_⟩
    rintro rfl
    rw [List.mem_singleton.1 hb] at ha
    exact hn (by simpa using ha)

theorem nodup_distinct (names : List String) : (distinct names).Nodup := by
  suffices ∀ start : List String, start.Nodup → (names.foldl addName start).Nodup from
    this [] List.nodup_nil
  induction names with
  | nil => exact fun _ h => h
  | cons name rest ih => exact fun start h => ih _ (nodup_addName name h)

end TypeLabel
end SchemaTypes
