import SchemaTypes.Json.Basic
import SchemaTypes.Pattern.Basic
/-!
# Faults and notices

A fault ends the processing of a document and says what is wrong with it.  A notice is worth
telling and ends nothing.
-/
namespace SchemaTypes

inductive SchemaFault where
  | malformed (property reason : String)
  | unresolvedReference (reference : String)
  | unsupportedType (property typeName : String)
  | unsupportedFormat (property format : String)
  | emptyIdentifier (name : String)
  | invalidPattern (property pattern : String) (fault : Pattern.Fault)
  | duplicatePatternKey (className key : String)
  | baseReferenceNotObject (reference : String)
  | rootNotObject (document : String)
  | emptyEnum (property : String)
  | unknownFilter (property filter : String)
  | incompatibleFilter (property filter typeName : String)
  | invalidDefault (property expected : String)

namespace SchemaFault

/-- The message; for a pattern it leaves out why the pattern is invalid (`detail?`). -/
def message : SchemaFault → String
  | malformed property reason => "malformed schema for " ++ property ++ ": " ++ reason
  | unresolvedReference reference => "unresolved reference " ++ reference
  | unsupportedType property typeName =>
    "unsupported type " ++ typeName ++ " for property " ++ property
  | unsupportedFormat property format =>
    "unsupported format " ++ format ++ " for property " ++ property
  | emptyIdentifier name => "name of the property '" ++ name ++ "' results in an empty identifier"
  | invalidPattern property pattern _ =>
    "invalid pattern '" ++ pattern ++ "' for property " ++ property
  | duplicatePatternKey className key =>
    "duplicate pattern property access key '" ++ key ++ "' in " ++ className
  | baseReferenceNotObject reference =>
    "a referenced base schema must be an object, got " ++ reference
  | rootNotObject document => "root schema of " ++ document ++ " must describe an object"
  | emptyEnum property => "empty enum for property " ++ property
  | unknownFilter property filter => "unsupported filter " ++ filter ++ " on property " ++ property
  | incompatibleFilter property filter typeName =>
    "filter " ++ filter ++ " is not compatible with property " ++ property ++ " of type " ++ typeName
  | invalidDefault property expected =>
    "invalid default value for property " ++ property ++ ": expected " ++ expected

/-- What is wrong with a pattern, in words. -/
def detail? : SchemaFault → Option String
  | invalidPattern _ _ .malformed => some "regex parse error:"
  | invalidPattern _ _ .tooLarge => some "Compiled regex exceeds size limit of 10485760 bytes."
  | _ => none

end SchemaFault

inductive Notice where
  /-- A type was found to be a duplicate and is generated as the other. -/
  | typeRedirected (fromName toName : String)
  /-- A composition without branches, which nothing can satisfy. -/
  | emptyComposition (keyword property : String)
  /-- A condition without consequence. -/
  | ineffectiveConditional (property : String)
deriving DecidableEq, Repr

namespace Notice

def isWarning : Notice → Bool
  | typeRedirected .. => false
  | _ => true

def message : Notice → String
  | typeRedirected fromName toName =>
    "Duplicated signature " ++ fromName ++ " redirected to " ++ toName
  | emptyComposition keyword property =>
    "Empty " ++ keyword ++ " composition for property " ++ property ++ " will always fail"
  | ineffectiveConditional property =>
    "Conditional composition for property " ++ property ++ " has neither then nor else"

def toJson : Notice → Json
  | typeRedirected fromName toName =>
    .object [("diagnostic", .string "schema-redirected"), ("from", .string fromName),
      ("to", .string toName)]
  | emptyComposition keyword property =>
    .object [("diagnostic", .string "empty-composition"), ("keyword", .string keyword),
      ("property", .string property)]
  | ineffectiveConditional property =>
    .object [("diagnostic", .string "ineffective-conditional"), ("property", .string property)]

end Notice
end SchemaTypes
