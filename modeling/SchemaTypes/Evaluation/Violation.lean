import SchemaTypes.Check.Message
/-!
# Violations

A violation is one failed check of one property.  Where the check looked into the value or tried
alternatives, details group what was found there: one per invalid item, branch, member and so on.
Violations and details nest as deep as the value and the schema do.
-/
namespace SchemaTypes

/-- A labelled group of findings. -/
structure Detail (α : Type) where
  label : String
  passed : Bool
  violations : List α

structure Violation where
  /-- The name of the property, or of the class for checks on an object as a whole. -/
  property : String
  kind : FailureKind
  message : String
  /-- The check's parameters, and those of the failing run. -/
  parameters : Members
  details : List (Detail Violation)

namespace Detail

/-- The group of what failed under a label. -/
def failed {α : Type} (label : String) (violations : List α) : Detail α := ⟨label, false, violations⟩

end Detail

namespace Violation

/-! ## Messages -/

mutual
/-- The message, followed by all nested ones, depth first. -/
def allMessages : Violation → List String
  | ⟨_, _, message, _, details⟩ => message :: messagesOfDetails details
def messagesOfDetails : List (Detail Violation) → List String
  | [] => []
  | ⟨_, _, violations⟩ :: rest => messagesOfList violations ++ messagesOfDetails rest
def messagesOfList : List Violation → List String
  | [] => []
  | violation :: rest => violation.allMessages ++ messagesOfList rest
end

/-! ## Text

A line per message and per label.  Each level is indented by four blanks, labels by two more. -/

def line (indentation : Nat) (text : String) : String :=
  String.ofList (List.replicate indentation ' ') ++ text ++ "\n"

mutual
def textAt (level : Nat) : Violation → String
  | ⟨_, _, message, _, details⟩ => line (4 * level) message ++ textOfDetails level details
def textOfDetails (level : Nat) : List (Detail Violation) → String
  | [] => ""
  | ⟨label, _, violations⟩ :: rest =>
    line (4 * level + 2) ("- " ++ label) ++ textOfList (level + 1) violations
      ++ textOfDetails level rest
def textOfList (level : Nat) : List Violation → String
  | [] => ""
  | violation :: rest => textAt level violation ++ textOfList level rest
end

def text (violation : Violation) : String := violation.textAt 0

/-! ## JSON

Lists without entries are left out. -/

/-- A member for a list that is not empty. -/
def listMember (name : String) : List Json → Members
  | [] => []
  | items => [(name, .array items)]

mutual
def toJson : Violation → Json
  | ⟨property, kind, message, parameters, details⟩ =>
    .object ([("property", .string property), ("kind", .string kind.name), ("message", .string message),
      ("params", .object parameters)] ++ listMember "details" (detailsToJson details))
def detailsToJson : List (Detail Violation) → List Json
  | [] => []
  | ⟨label, passed, violations⟩ :: rest =>
    .object ([("label", .string label), ("passed", .bool passed)]
      ++ listMember "violations" (listToJson violations)) :: detailsToJson rest
def listToJson : List Violation → List Json
  | [] => []
  | violation :: rest => violation.toJson :: listToJson rest
end

end Violation

/-! ## Reports -/

/-- The violations of one evaluation, in the order they were found. -/
abbrev Report := List Violation

namespace Report

def messages (report : Report) : List String := report.map (·.message)

def forProperty (report : Report) (property : String) : Report := report.filter (·.property = property)

/-- The properties with violations, in order of the first. -/
def properties (report : Report) : List String := (report.map (·.property)).eraseDups

/-- The violations property by property. -/
def byProperty (report : Report) : List (String × Report) :=
  (properties report).map fun property => (property, forProperty report property)

def text (report : Report) : String := String.join (report.map Violation.text)

def toJson (report : Report) : Json := .array (report.map Violation.toJson)

end Report
end SchemaTypes
