import SchemaTypes.Check.Basic
import SchemaTypes.Json.Writer
/-!
# Checks in words

`describe` is the short text of a check.  `fingerprint` is the text two checks share if they ask
for the same: it leaves out ids and class names, which differ between equal schemas, and holds
what `describe` abridges.
-/
namespace SchemaTypes.Check

def nullSuffix (settles : Bool) : String := if settles then " (implicit null)" else ""

def slashed (regex : Pattern) : String := "/" ++ regex.source ++ "/"

def hash (index : Nat) : String := "#" ++ toString index

def kindNames (kinds : List Kind) : String := "|".intercalate (kinds.map Kind.keyword)

def describe : Check → String
  | .required => "value is present"
  | .type kinds settles => "type is " ++ kindNames kinds ++ nullSuffix settles
  | .enumeration values settles => "value in " ++ (Json.array values).text ++ nullSuffix settles
  | .implicitNull true => "null is absent (implicit null)"
  | .implicitNull false => "null is a value"
  | .constant value => "value == " ++ value.text
  | .minimum limit exclusive => "value " ++ (if exclusive then ">" else ">=") ++ " " ++ limit.text
  | .maximum limit exclusive => "value " ++ (if exclusive then "<" else "<=") ++ " " ++ limit.text
  | .multipleOf divisor => "value % " ++ divisor.text ++ " == 0"
  | .pattern regex => "value matches " ++ slashed regex
  | .minLength length => "length >= " ++ toString length
  | .maxLength length => "length <= " ++ toString length
  | .minItems count => "item count >= " ++ toString count
  | .maxItems count => "item count <= " ++ toString count
  | .uniqueItems => "items are unique"
  | .items item => "every item satisfies " ++ hash item.index
  | .tuple positions => "tuple of " ++ toString positions.length ++ " items"
  | .noAdditionalItems expected => "at most " ++ toString expected ++ " items"
  | .additionalItems offset item =>
    "items from " ++ toString offset ++ " satisfy " ++ hash item.index
  | .contains item => "some item satisfies " ++ hash item.index
  | .instanceOf id => "value satisfies schema " ++ hash id.index
  | .noAdditionalProperties _ known _ => "only properties [" ++ ", ".intercalate known ++ "]"
  | .additionalProperties _ _ _ property => "additional properties satisfy " ++ hash property.index
  | .patternProperty _ regex _ _ => "properties matching " ++ slashed regex ++ " are valid"
  | .propertyNames _ property => "property names satisfy " ++ hash property.index
  | .minProperties count => "property count >= " ++ toString count
  | .maxProperties count => "property count <= " ++ toString count
  | .propertyDependency trigger dependants =>
    trigger ++ " requires [" ++ ", ".intercalate dependants ++ "]"
  | .schemaDependency trigger _ => trigger ++ " requires dependency schema"
  | .composition combinator branches _ =>
    combinator.keyword ++ " of " ++ toString branches.length ++ " branches"
  | .conditional _ consequent alternative _ =>
    "if/then" ++ (if consequent.isSome then "" else " (none)")
      ++ "/else" ++ (if alternative.isSome then "" else " (none)")
  | .filter name _ _ _ => "filter " ++ name
  | .deferred reference => "deferred " ++ reference
  | .custom description _ => description

def patternList (patterns : List Pattern) : String := ",".intercalate (patterns.map slashed)

def fingerprint : Check → String
  | .items _ => "items"
  | .tuple positions => "tuple " ++ toString positions.length
  | .additionalItems offset _ => "additional items from " ++ toString offset
  | .contains _ => "contains"
  | .instanceOf _ => "nested object"
  | .noAdditionalProperties _ known patterns =>
    "no additional [" ++ ",".intercalate known ++ "] " ++ patternList patterns
  | .additionalProperties _ known patterns _ =>
    "additional [" ++ ",".intercalate known ++ "] " ++ patternList patterns
  | .patternProperty _ regex key _ => "pattern property " ++ slashed regex ++ " as " ++ key
  | .propertyNames _ _ => "property names"
  | .schemaDependency trigger _ => "dependency schema of " ++ trigger
  | .composition combinator branches onObject =>
    combinator.keyword ++ " object=" ++ toString onObject ++ " affected=["
      ++ ";".intercalate (branches.map fun branch => ",".intercalate branch.affected) ++ "]"
  | .conditional _ consequent alternative onObject =>
    "if then=" ++ toString consequent.isSome ++ " else=" ++ toString alternative.isSome
      ++ " object=" ++ toString onObject
  | .filter name options _ _ => "filter " ++ name ++ " " ++ options.text
  | check => check.describe

end SchemaTypes.Check
