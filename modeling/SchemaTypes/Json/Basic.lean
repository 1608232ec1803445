import SchemaTypes.Binary64.Basic
/-!
# JSON values

A value is plain data.  An object is the list of its members in document order;
readers keep the names distinct (`Members.insert` replaces in place), the type does
not ask for it.  A number remembers whether it was spelled as an integer: `1` and
`1.0` are different values that compare equal by number.
-/
namespace SchemaTypes

/-- A JSON number.  An integer lies in the union of the signed and the unsigned
64-bit range; what does not fit, and every literal with a fraction or an exponent,
is a double. -/
inductive Number where
  | integer (value : Int)
  | float (value : Binary64)
deriving DecidableEq, Repr

inductive Json where
  | null
  | bool (value : Bool)
  | number (value : Number)
  | string (text : String)
  | array (items : List Json)
  | object (members : List (String × Json))
deriving Inhabited

/-! ## Members

Lists of named values, in order.  `insert` keeps the position of a name that is
already there and appends a new one. -/

abbrev Members := List (String × Json)

namespace Members

def get? (members : Members) (name : String) : Option Json := List.lookup name members

def has (members : Members) (name : String) : Bool := members.any (·.1 == name)

def names (members : Members) : List String := members.map (·.1)

def insert : Members → String → Json → Members
  | [], name, value => [(name, value)]
  | (n, v) :: rest, name, value =>
    if n = name then (n, value) :: rest else (n, v) :: insert rest name value

/-- Insert every member of `others`, first to last. -/
def insertAll (members others : Members) : Members :=
  others.foldl (fun acc member => acc.insert member.1 member.2) members

theorem get?_insert_self (members : Members) (name : String) (value : Json) :
    (members.insert name value).get? name = some value := by
  induction members with
  | nil => simp [insert, get?]
  | cons m rest ih =>
    obtain ⟨n, v⟩ := m
    by_cases h : n = name
    · simp [insert, get?, h]
    · have : (name == n) = false := by simpa using Ne.symm h
      simp only [insert, h, if_false, get?, List.lookup_cons, this] at ih ⊢
      exact ih

theorem get?_insert_of_ne (members : Members) {name other : String} (value : Json) (h : other ≠ name) :
    (members.insert name value).get? other = members.get? other := by
  induction members with
  | nil => simp [insert, get?, List.lookup_cons, List.lookup_nil, beq_false_of_ne h]
  | cons m rest ih =>
    obtain ⟨n, v⟩ := m
    by_cases hn : n = name
    · subst hn; simp [insert, get?, List.lookup_cons, beq_false_of_ne h]
    · by_cases ho : other = n
      · subst ho; simp [insert, get?, hn]
      · simp only [insert, hn, if_false, get?, List.lookup_cons, beq_false_of_ne ho] at ih ⊢
        exact ih

end Members

namespace Json

/-- The member `name` of an object; other values have none. -/
def get? (value : Json) (name : String) : Option Json :=
  match value with
  | .object members => Members.get? members name
  | _ => none

def has (value : Json) (name : String) : Bool := (value.get? name).isSome

def isNull : Json → Bool
  | .null => true
  | _ => false

def isObject : Json → Bool
  | .object _ => true
  | _ => false

def string? : Json → Option String
  | .string text => some text
  | _ => none

/-- A count: an integer that is not negative.  A float is none, whatever its value. -/
def count? : Json → Option Nat
  | .number (.integer (.ofNat n)) => some n
  | _ => none

/-- The string under `name`, if there is one. -/
def stringAt? (value : Json) (name : String) : Option String := (value.get? name).bind string?

def ofNat (n : Nat) : Json := .number (.integer n)

def ofStrings (texts : List String) : Json := .array (texts.map .string)

/-! ## Depth

How many containers enclose the innermost part of a value, itself included. -/

mutual
def depth : Json → Nat
  | .array items => depthOfItems items + 1
  | .object members => depthOfMembers members + 1
  | _ => 0
def depthOfItems : List Json → Nat
  | [] => 0
  | item :: rest => max item.depth (depthOfItems rest)
def depthOfMembers : List (String × Json) → Nat
  | [] => 0
  | (_, value) :: rest => max value.depth (depthOfMembers rest)
end

end Json
end SchemaTypes
