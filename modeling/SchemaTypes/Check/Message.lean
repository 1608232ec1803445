import SchemaTypes.Check.Basic
import SchemaTypes.Json.Writer
import SchemaTypes.Text.Replace
/-!
# Failure messages

Each check has a kind of failure, a template with named slots, and parameters known when the
check is built.  A message is the template's text with the slots replaced one name after the
other: the property first, then the check's parameters, then those that only a failing run
knows.  A replacement is text like any other, so a slot that comes with an earlier
replacement is filled by a later one.
-/
namespace SchemaTypes

inductive FailureKind where
  | requiredMissing
  | typeMismatch
  | rangeViolation
  | lengthViolation
  | patternMismatch
  | enumViolation
  | itemViolation
  | compositionViolation
  | conditionalViolation
  | additionalPropertyViolation
  | propertyNameViolation
  | dependencyViolation
  | nestedObjectViolation
  | filterViolation
  | custom
deriving DecidableEq, Repr

def FailureKind.name : FailureKind → String
  | .requiredMissing => "RequiredMissing"
  | .typeMismatch => "TypeMismatch"
  | .rangeViolation => "RangeViolation"
  | .lengthViolation => "LengthViolation"
  | .patternMismatch => "PatternMismatch"
  | .enumViolation => "EnumViolation"
  | .itemViolation => "ItemViolation"
  | .compositionViolation => "CompositionViolation"
  | .conditionalViolation => "ConditionalViolation"
  | .additionalPropertyViolation => "AdditionalPropertyViolation"
  | .propertyNameViolation => "PropertyNameViolation"
  | .dependencyViolation => "DependencyViolation"
  | .nestedObjectViolation => "NestedObjectViolation"
  | .filterViolation => "FilterViolation"
  | .custom => "Custom"

/-! ## Templates -/

inductive TemplatePart where
  | text (text : String)
  | slot (name : String)
deriving DecidableEq, Repr

abbrev Template := List TemplatePart

namespace Template

/-- A slot as it is written in a message. -/
def placeholder (name : String) : List Char := '{' :: name.toList ++ ['}']

def chars (template : Template) : List Char :=
  template.flatMap fun
    | .text text => text.toList
    | .slot name => placeholder name

/-- The template's text, slots in braces. -/
def text (template : Template) : String := String.ofList template.chars

def slots (template : Template) : List String :=
  template.filterMap fun
    | .text _ => none
    | .slot name => some name

end Template

mutual
/-- A parameter in a message: a string bare, the items of an array separated by commas, anything
else as JSON. -/
def Json.inMessage : Json → String
  | .string text => text
  | .array items => ", ".intercalate (itemsInMessage items)
  | .null => Json.null.text
  | .bool value => (Json.bool value).text
  | .number value => (Json.number value).text
  | .object members => (Json.object members).text
def itemsInMessage : List Json → List String
  | [] => []
  | item :: rest => item.inMessage :: itemsInMessage rest
end

/-- Replace the slots that the members name, first to last. -/
def fillSlots (message : List Char) (parameters : Members) : List Char :=
  parameters.foldl (fun message (name, value) =>
    Text.replaceAll (Template.placeholder name) value.inMessage.toList message) message

namespace Check

def failureKind : Check → FailureKind
  | .required => .requiredMissing
  | .type .. | .implicitNull _ => .typeMismatch
  | .enumeration .. | .constant _ => .enumViolation
  | .minimum .. | .maximum .. | .multipleOf _ | .minProperties _ | .maxProperties _ => .rangeViolation
  | .pattern _ => .patternMismatch
  | .minLength _ | .maxLength _ | .minItems _ | .maxItems _ => .lengthViolation
  | .uniqueItems | .items _ | .tuple _ | .noAdditionalItems _ | .additionalItems .. | .contains _ =>
    .itemViolation
  | .instanceOf _ => .nestedObjectViolation
  | .noAdditionalProperties .. | .additionalProperties .. | .patternProperty .. =>
    .additionalPropertyViolation
  | .propertyNames .. => .propertyNameViolation
  | .propertyDependency .. | .schemaDependency .. => .dependencyViolation
  | .composition .. => .compositionViolation
  | .conditional .. => .conditionalViolation
  | .filter .. => .filterViolation
  | .deferred _ | .custom .. => .custom

/-- The message template.  Every slot is `property`, a parameter of the check, or a parameter
that the failing run adds. -/
def template : Check → Template
  | .required => [.text "Missing required value for ", .slot "property"]
  | .type .. =>
    [.text "Invalid type for ", .slot "property", .text ". Requires ", .slot "expected",
      .text ", got ", .slot "actual"]
  | .enumeration .. =>
    [.text "Invalid value for ", .slot "property", .text " declined by enum constraint"]
  | .implicitNull _ => [.text "Invalid null value for ", .slot "property"]
  | .constant _ =>
    [.text "Invalid value for ", .slot "property", .text " declined by const constraint"]
  | .minimum _ false =>
    [.text "Value for ", .slot "property", .text " must not be smaller than ", .slot "limit"]
  | .minimum _ true =>
    [.text "Value for ", .slot "property", .text " must be larger than ", .slot "limit"]
  | .maximum _ false =>
    [.text "Value for ", .slot "property", .text " must not be larger than ", .slot "limit"]
  | .maximum _ true =>
    [.text "Value for ", .slot "property", .text " must be smaller than ", .slot "limit"]
  | .multipleOf _ =>
    [.text "Value for ", .slot "property", .text " must be a multiple of ", .slot "divisor"]
  | .pattern _ =>
    [.text "Value for ", .slot "property", .text " doesn't match pattern ", .slot "pattern"]
  | .minLength _ =>
    [.text "Value for ", .slot "property", .text " must not be shorter than ", .slot "length"]
  | .maxLength _ =>
    [.text "Value for ", .slot "property", .text " must not be longer than ", .slot "length"]
  | .minItems _ =>
    [.text "Array ", .slot "property", .text " must not contain less than ", .slot "count",
      .text " items"]
  | .maxItems _ =>
    [.text "Array ", .slot "property", .text " must not contain more than ", .slot "count",
      .text " items"]
  | .uniqueItems => [.text "Items of array ", .slot "property", .text " are not unique"]
  | .items _ => [.text "Invalid items in array ", .slot "property"]
  | .tuple _ => [.text "Invalid tuple item in array ", .slot "property"]
  | .noAdditionalItems _ =>
    [.text "Tuple array ", .slot "property", .text " contains not allowed additional items. Expected ",
      .slot "expected", .text " items, got ", .slot "actual"]
  | .additionalItems .. =>
    [.text "Tuple array ", .slot "property", .text " contains invalid additional items"]
  | .contains _ =>
    [.text "No item in array ", .slot "property", .text " matches contains constraint"]
  | .instanceOf _ => [.text "Invalid nested object for property ", .slot "property"]
  | .noAdditionalProperties .. =>
    [.text "Provided JSON for ", .slot "class", .text " contains not allowed additional properties [",
      .slot "properties", .text "]"]
  | .additionalProperties .. =>
    [.text "Provided JSON for ", .slot "class", .text " contains invalid additional properties"]
  | .patternProperty .. =>
    [.text "Provided JSON for ", .slot "class", .text " contains invalid pattern properties matching ",
      .slot "pattern"]
  | .propertyNames .. =>
    [.text "Provided JSON for ", .slot "class", .text " contains invalid property names"]
  | .minProperties _ =>
    [.text "Provided object for ", .slot "property", .text " must not contain less than ",
      .slot "count", .text " properties"]
  | .maxProperties _ =>
    [.text "Provided object for ", .slot "property", .text " must not contain more than ",
      .slot "count", .text " properties"]
  | .propertyDependency .. =>
    [.text "Missing required attributes which are dependants of ", .slot "trigger", .text ": ",
      .slot "missing"]
  | .schemaDependency .. => [.text "Invalid schema which is dependant on ", .slot "trigger"]
  | .composition .. =>
    [.text "Invalid value for ", .slot "property",
      .text " declined by composition constraint. Requires to match ", .slot "requirement",
      .text " but matched ", .slot "matched", .text " elements"]
  | .conditional .. =>
    [.text "Invalid value for ", .slot "property",
      .text " declined by conditional composition constraint"]
  | .filter .. =>
    [.text "Filter ", .slot "filter", .text " failed for ", .slot "property", .text ": ",
      .slot "reason"]
  | .deferred _ => [.text "Unresolved reference ", .slot "reference", .text " for ", .slot "property"]
  | .custom .. =>
    [.text "Invalid value for ", .slot "property", .text " declined by custom constraint: ",
      .slot "description"]

/-- The parameters known when the check is built. -/
def parameters : Check → Members
  | .type kinds _ => [("expected", .string ("|".intercalate (kinds.map Kind.keyword)))]
  | .enumeration values _ => [("allowed", .array values)]
  | .constant value => [("const", value)]
  | .minimum limit _ | .maximum limit _ => [("limit", .number limit)]
  | .multipleOf divisor => [("divisor", .number divisor)]
  | .pattern regex => [("pattern", .string regex.source)]
  | .minLength length | .maxLength length => [("length", .ofNat length)]
  | .minItems count | .maxItems count | .minProperties count | .maxProperties count =>
    [("count", .ofNat count)]
  | .noAdditionalItems expected => [("expected", .ofNat expected)]
  | .noAdditionalProperties className _ _ | .additionalProperties className _ _ _
  | .propertyNames className _ => [("class", .string className)]
  | .patternProperty className regex key _ =>
    [("class", .string className), ("pattern", .string regex.source), ("key", .string key)]
  | .propertyDependency trigger dependants =>
    [("trigger", .string trigger), ("dependants", .ofStrings dependants)]
  | .schemaDependency trigger _ => [("trigger", .string trigger)]
  | .composition combinator _ _ =>
    [("keyword", .string combinator.keyword), ("requirement", .string combinator.requirement)]
  | .filter name options _ _ =>
    ("filter", .string name) :: (if options.isNull then [] else [("options", options)])
  | .deferred reference => [("reference", .string reference)]
  | .custom description _ => [("description", .string description)]
  | .required | .implicitNull _ | .uniqueItems | .items _ | .tuple _ | .additionalItems ..
  | .contains _ | .instanceOf _ | .conditional .. => []

/-- The message of a failure of `property`; `runtime` holds what only the failing run knows. -/
def message (check : Check) (property : String) (runtime : Members) : String :=
  let message := Text.replaceAll (Template.placeholder "property") property.toList check.template.chars
  String.ofList (fillSlots (fillSlots message check.parameters) runtime)

end Check
end SchemaTypes
