import SchemaTypes.Configuration.Settings
import SchemaTypes.Evaluation.Violation
/-!
# Verdicts and outcomes

A check passes, fails, or settles the value: then it is accepted and the property's later checks
are skipped.  The outcome of a property is its value after filters and nested changes, and the
violations on the way; a missing value stays missing.

Checks that look into a value judge its parts by other properties.  They do so through a
`Judge`, and `Evaluation.Basic` closes the recursion.  A judge answers none if its recursion
bound is used up; so does everything that asks it.
-/
namespace SchemaTypes

/-- Whether evaluation stops at the first violation. -/
inductive Mode where
  | failFast
  | collectAll
deriving DecidableEq, Repr

def Settings.mode (settings : Settings) : Mode :=
  if settings.collectErrors then .collectAll else .failFast

/-- Whether violations end a loop. -/
def Mode.stopsAt (mode : Mode) (violations : List Violation) : Bool :=
  mode = .failFast && !violations.isEmpty

structure Outcome where
  value : Option Json
  violations : List Violation := []

def Outcome.isValid (outcome : Outcome) : Bool := outcome.violations.isEmpty

/-- Judges a value, or the absence of one, by a property. -/
abbrev Judge := PropertyId → Option Json → Option Outcome

/-- What a failing run knows. -/
structure Failure where
  runtime : Members := []
  details : List (Detail Violation) := []

inductive Verdict where
  | pass
  | settle
  | fail (failure : Failure)

namespace Verdict

def ofBool (passed : Bool) : Verdict := if passed then .pass else .fail {}

/-- Failure with one more parameter. -/
def failWith (name : String) (value : Json) : Verdict := .fail { runtime := [(name, value)] }

/-- Failure if there are details. -/
def ofDetails (details : List (Detail Violation)) : Verdict :=
  if details.isEmpty then .pass else .fail { details }

end Verdict

/-- The violation of a failed check. -/
def Failure.violation (failure : Failure) (check : Check) (property : String) : Violation where
  property := property
  kind := check.failureKind
  message := check.message property failure.runtime
  parameters := Members.insertAll check.parameters failure.runtime
  details := failure.details

/-! ## Parts of a value -/

/-- A part of a value: the label it is reported under, and the property that judges it. -/
structure Part where
  label : String
  property : PropertyId
  value : Option Json

/-- The values of the parts that were judged, and a detail for each invalid one. -/
structure Survey where
  values : List (Option Json) := []
  details : List (Detail Violation) := []

/-- Judge parts in order; failing fast ends after the first invalid one. -/
def Judge.survey (judge : Judge) (mode : Mode) : List Part → Option Survey
  | [] => some {}
  | part :: rest => do
    let outcome ← judge part.property part.value
    let details :=
      if outcome.isValid then [] else [Detail.failed part.label outcome.violations]
    if mode.stopsAt outcome.violations then
      return { values := [outcome.value], details }
    else
      let others ← survey judge mode rest
      return { values := outcome.value :: others.values, details := details ++ others.details }

/-- Put the judged values in the place of the items, as far as there are any. -/
def overwrite : List Json → List (Option Json) → List Json
  | item :: items, value :: values => value.getD item :: overwrite items values
  | items, [] => items
  | [], _ => []

theorem length_overwrite (items : List Json) (values : List (Option Json)) :
    (overwrite items values).length = items.length := by
  induction items generalizing values with
  | nil => cases values <;> rfl
  | cons item items ih => cases values <;> simp [overwrite, ih]

end SchemaTypes
