import SchemaTypes.Json.Kind
import SchemaTypes.Pattern.Basic
/-!
# Checks

A check is one thing a value has to satisfy.  Checks that look into a value name the properties
they apply to its parts by id (`children`), and the type an object becomes an instance of
(`types`), so a graph of properties and types may be cyclic while a check stays finite.
-/
namespace SchemaTypes

/-- The place of a property in the graph. -/
structure PropertyId where
  index : Nat
deriving DecidableEq, Repr, Inhabited

/-- The place of a type in the graph. -/
structure TypeId where
  index : Nat
deriving DecidableEq, Repr, Inhabited

/-- The keywords that combine schemas. -/
inductive Combinator where
  | allOf
  | anyOf
  | oneOf
  | not
deriving DecidableEq, Repr

namespace Combinator

def all : List Combinator := [.allOf, .anyOf, .oneOf, .not]

def keyword : Combinator → String
  | .allOf => "allOf"
  | .anyOf => "anyOf"
  | .oneOf => "oneOf"
  | .not => "not"

/-- How many branches have to match, in words. -/
def requirement : Combinator → String
  | .allOf => "all composition elements"
  | .anyOf => "at least one composition element"
  | .oneOf => "one composition element"
  | .not => "none of the composition elements"

/-- Whether `matched` branches of `total` are as many as required.  Without branches nothing is. -/
def isSatisfied (combinator : Combinator) (matched total : Nat) : Bool :=
  total != 0 && match combinator with
    | .allOf => matched == total
    | .anyOf => 1 ≤ matched
    | .oneOf => matched == 1
    | .not => matched == 0

end Combinator

/-- A branch of a composition, and the properties of the enclosing object that it populates. -/
structure Branch where
  property : PropertyId
  affected : List String

/-- A filter's function: the value and the options to a new value, or the reason it fails. -/
abbrev FilterFunction := Json → Json → Except String Json

inductive Check where
  /-- The value is there. -/
  | required
  /-- The value is of one of the kinds; with `implicitNull`, null counts as absent. -/
  | type (kinds : List Kind) (implicitNull : Bool)
  | enumeration (values : List Json) (implicitNull : Bool)
  /-- Null counts as absent if `enabled`; for properties without a type check of their own. -/
  | implicitNull (enabled : Bool)
  | constant (value : Json)
  | minimum (limit : Number) (exclusive : Bool)
  | maximum (limit : Number) (exclusive : Bool)
  | multipleOf (divisor : Number)
  | pattern (pattern : Pattern)
  | minLength (length : Nat)
  | maxLength (length : Nat)
  | minItems (count : Nat)
  | maxItems (count : Nat)
  | uniqueItems
  | items (item : PropertyId)
  | tuple (positions : List PropertyId)
  /-- No items beyond the first `expected`. -/
  | noAdditionalItems (expected : Nat)
  /-- The items from `offset` on. -/
  | additionalItems (offset : Nat) (item : PropertyId)
  | contains (item : PropertyId)
  | instanceOf (type : TypeId)
  | noAdditionalProperties (className : String) (known : List String) (patterns : List Pattern)
  | additionalProperties (className : String) (known : List String) (patterns : List Pattern)
      (property : PropertyId)
  | patternProperty (className : String) (pattern : Pattern) (key : String) (property : PropertyId)
  | propertyNames (className : String) (property : PropertyId)
  | minProperties (count : Nat)
  | maxProperties (count : Nat)
  | propertyDependency (trigger : String) (dependants : List String)
  | schemaDependency (trigger : String) (property : PropertyId)
  | composition (combinator : Combinator) (branches : List Branch) (onObject : Bool)
  | conditional (condition : PropertyId) (consequent alternative : Option PropertyId) (onObject : Bool)
  | filter (name : String) (options : Json) (accepts : List Kind) (apply : FilterFunction)
  /-- Stands in for the checks of a definition that is still being built. -/
  | deferred (reference : String)
  | custom (description : String) (accepts : Json → Bool)

namespace Check

/-- The properties this check applies to the value or to parts of it. -/
def children : Check → List PropertyId
  | .items item | .additionalItems _ item | .contains item => [item]
  | .tuple positions => positions
  | .additionalProperties _ _ _ property | .patternProperty _ _ _ property
  | .propertyNames _ property | .schemaDependency _ property => [property]
  | .composition _ branches _ => branches.map (·.property)
  | .conditional condition consequent alternative _ =>
    condition :: (consequent.toList ++ alternative.toList)
  | _ => []

/-- The types this check makes an instance of. -/
def types : Check → List TypeId
  | .instanceOf id => [id]
  | _ => []

def isRequired : Check → Bool
  | .required => true
  | _ => false

def isType : Check → Bool
  | .type .. => true
  | _ => false

/-- The kinds a type check declares. -/
def kinds? : Check → Option (List Kind)
  | .type kinds _ => some kinds
  | _ => none

/-! ## Order of execution

Presence comes first, then the type, then enumerated values, then filters, since these change
the value that the others see. -/

def defaultPriority : Check → Nat
  | .required => 1
  | .type .. | .implicitNull _ => 2
  | .enumeration .. | .constant _ => 3
  | .filter .. => 10
  | _ => 99

end Check
end SchemaTypes
