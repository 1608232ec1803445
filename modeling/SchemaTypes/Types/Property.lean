import SchemaTypes.Check.Validators
import SchemaTypes.Types.Label
/-!
# Properties

One validated field or value: what it is called, how it is declared, and the validators in the
order they run.

The presence check and the null flags follow from three marks.  A property is required or not;
a strict one keeps the presence check though it is optional; a relaxed one lives in a nested
context, where an absent value is nobody's fault, and has none.  `stampRequired` puts the
validators in step with the marks.
-/
namespace SchemaTypes

/-- What the code for a property has to do besides checking it. -/
inductive Decorator where
  /-- The value becomes an instance of a type. -/
  | instantiates (type : TypeId)
  /-- The types a value of an undeclared type may have. -/
  | typeHint (names : List String)
  /-- The property was lifted from a branch of this keyword. -/
  | transferred (keyword : String)
deriving DecidableEq, Repr

def Decorator.isTransferred : Decorator → Bool
  | .transferred _ => true
  | _ => false

structure Property where
  name : String
  identifier : String
  label : Option TypeLabel := none
  required : Bool
  default : Option Json := none
  description : Option String := none
  validators : Validators := {}
  decorators : List Decorator := []
  nested : Option TypeId := none
  strict : Bool := false
  relaxed : Bool := false

instance : Inhabited Property := ⟨{ name := "", identifier := "", required := false }⟩

/-- Whether null may settle a type check or an enumeration: only where null is not a value anyway. -/
def Check.withNull (allowed : Bool) : Check → Check
  | .type kinds _ => .type kinds (allowed && !kinds.contains .null)
  | .enumeration values _ => .enumeration values (allowed && !values.any Json.isNull)
  | .implicitNull _ => .implicitNull allowed
  | check => check

/-- Setting the null flag anew forgets the one before. -/
theorem Check.withNull_withNull (a b : Bool) (check : Check) :
    (check.withNull a).withNull b = check.withNull b := by
  cases check <;> rfl

namespace Property

def addCheck (property : Property) (check : Check) : Property :=
  { property with validators := property.validators.addCheck check }

def addDecorator (property : Property) (decorator : Decorator) : Property :=
  if property.decorators.contains decorator then property
  else { property with decorators := property.decorators ++ [decorator] }

def labelText (property : Property) : String := (property.label.map (·.text)).getD ""

/-- The kinds its type check declares, if it has one. -/
def declaredKinds? (property : Property) : Option (List Kind) :=
  (property.validators.find? Check.isType).bind Check.kinds?

/-- Make a property optional for a nested context. -/
def relax (property : Property) : Property :=
  { property with
    required := false
    relaxed := true
    validators := property.validators.removeRequired }

/-- Whether the property carries a presence check. -/
def needsPresence (property : Property) : Bool :=
  (property.required || property.strict) && !property.relaxed

/-- Whether null counts as absent, where the settings allow it at all. -/
def settlesNull (property : Property) (allowed : Bool) : Bool :=
  allowed && !property.required && !property.strict && !property.relaxed

/-- Set the required mark, and derive the presence check and the null flags again. -/
def stampRequired (property : Property) (required allowed : Bool) : Property :=
  let property := { property with required, validators := property.validators.removeRequired }
  let validators :=
    if property.needsPresence then property.validators.addCheck .required else property.validators
  { property with validators := validators.mapChecks (Check.withNull (property.settlesNull allowed)) }

end Property
end SchemaTypes
