import SchemaTypes.Check.Basic
/-!
# Validators in order

A validator is a check with the priority it runs at.  `Validators` holds them by ascending
priority, and among equal priorities in the order they were added: `add` goes behind everything of
its own priority, and no other operation moves a validator.  `sort` orders by priority and number
of arrival, which is the order the list is in already.
-/
namespace SchemaTypes

structure Validator where
  check : Check
  priority : Nat

/-- A check at its default priority. -/
def Check.toValidator (check : Check) : Validator := ⟨check, check.defaultPriority⟩

/-- A validator with the number of its arrival in a list. -/
structure Arrival where
  number : Nat
  validator : Validator

structure Validators where
  arrivals : List Arrival := []
  next : Nat := 0
deriving Inhabited

namespace Validators

def empty : Validators := {}

def toList (validators : Validators) : List Validator := validators.arrivals.map (·.validator)

def length (validators : Validators) : Nat := validators.arrivals.length

def isEmpty (validators : Validators) : Bool := validators.arrivals.isEmpty

/-- Put an arrival behind the leading ones whose priority is not higher. -/
def place (arrival : Arrival) : List Arrival → List Arrival
  | [] => [arrival]
  | first :: rest =>
    if first.validator.priority ≤ arrival.validator.priority then first :: place arrival rest
    else arrival :: first :: rest

def add (validators : Validators) (validator : Validator) : Validators :=
  { arrivals := place ⟨validators.next, validator⟩ validators.arrivals
    next := validators.next + 1 }

/-- Add a check at its default priority. -/
def addCheck (validators : Validators) (check : Check) : Validators := validators.add check.toValidator

def extend (validators : Validators) (others : List Validator) : Validators := others.foldl add validators

/-- Whether an arrival comes no later than another. -/
def precedes (a b : Arrival) : Bool :=
  a.validator.priority < b.validator.priority ||
    (a.validator.priority == b.validator.priority && a.number ≤ b.number)

def sort (validators : Validators) : Validators :=
  { validators with arrivals := validators.arrivals.mergeSort precedes }

def retain (validators : Validators) (keep : Validator → Bool) : Validators :=
  { validators with arrivals := validators.arrivals.filter (keep ·.validator) }

def removeRequired (validators : Validators) : Validators := validators.retain (!·.check.isRequired)

def hasRequired (validators : Validators) : Bool := validators.toList.any (·.check.isRequired)

/-- The first check that satisfies `p`. -/
def find? (validators : Validators) (p : Check → Bool) : Option Check :=
  (validators.toList.map (·.check)).find? p

/-- Change every check in place; priorities and order stay. -/
def mapChecks (validators : Validators) (f : Check → Check) : Validators :=
  { validators with
    arrivals := validators.arrivals.map fun arrival =>
      { arrival with validator := { arrival.validator with check := f arrival.validator.check } } }

/-- The properties the checks apply, check by check. -/
def children (validators : Validators) : List PropertyId :=
  validators.toList.flatMap (·.check.children)

/-- The types the checks make instances of. -/
def types (validators : Validators) : List TypeId := validators.toList.flatMap (·.check.types)

/-! ## What the operations do to the list -/

theorem toList_empty : empty.toList = [] := rfl

theorem place_perm (arrival : Arrival) (arrivals : List Arrival) :
    (place arrival arrivals).Perm (arrival :: arrivals) := by
  induction arrivals with
  | nil => exact List.Perm.refl _
  | cons first rest ih =>
    unfold place
    split
    · exact (ih.cons first).trans (List.Perm.swap arrival first rest)
    · exact List.Perm.refl _

theorem toList_add_perm (validators : Validators) (validator : Validator) :
    (validators.add validator).toList.Perm (validator :: validators.toList) :=
  (place_perm ⟨validators.next, validator⟩ validators.arrivals).map Arrival.validator

theorem mem_toList_add {validators : Validators} {validator x : Validator} :
    x ∈ (validators.add validator).toList ↔ x = validator ∨ x ∈ validators.toList := by
  rw [(toList_add_perm validators validator).mem_iff, List.mem_cons]

theorem toList_retain (validators : Validators) (keep : Validator → Bool) :
    (validators.retain keep).toList = validators.toList.filter keep := by
  simp [retain, toList, List.filter_map, Function.comp_def]

theorem toList_removeRequired (validators : Validators) :
    validators.removeRequired.toList = validators.toList.filter (!·.check.isRequired) :=
  toList_retain validators _

theorem hasRequired_removeRequired (validators : Validators) :
    validators.removeRequired.hasRequired = false := by
  rw [hasRequired, toList_removeRequired]
  simp

theorem toList_mapChecks (validators : Validators) (f : Check → Check) :
    (validators.mapChecks f).toList =
      validators.toList.map fun validator => { validator with check := f validator.check } := by
  simp [mapChecks, toList, Function.comp_def]

end Validators
end SchemaTypes
