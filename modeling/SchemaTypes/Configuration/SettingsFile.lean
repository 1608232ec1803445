import SchemaTypes.Configuration.Settings
import SchemaTypes.Json.Basic
import SchemaTypes.Toml.Reader
/-!
# The settings file

Settings are the two keys `implicit_null` and `collect_errors` at the top of a TOML document.  A
missing key leaves its setting on; other keys are ignored; a value other than a boolean is a fault.
-/
namespace SchemaTypes.Settings

/-- Where the settings of a project are, seen from its directory. -/
def path : String := ".schemagen/config.toml"

/-- A setting that is on unless the file says otherwise. -/
def flag? (entries : Toml.Entries) (key : String) : Option Bool :=
  match entries.lookup key with
  | none => some true
  | some (.boolean value) => some value
  | some _ => none

def ofToml? (text : String) : Option Settings := do
  let entries ← Toml.parse? text
  return {
    implicitNull := ← flag? entries "implicit_null"
    collectErrors := ← flag? entries "collect_errors" }

/-! ## Schema of the file -/

def flagSchema (description : String) : Json :=
  .object [("description", .string description), ("type", .string "boolean"), ("default", .bool true)]

/-- The schema of the settings. -/
def schema : Json :=
  .object [
    ("$schema", .string "https://json-schema.org/draft/2020-12/schema"),
    ("title", .string "Settings"),
    ("description", .string "Serializable run settings."),
    ("type", .string "object"),
    ("properties", .object [
      ("implicit_null",
        flagSchema "Optional properties accept `null` even if `null` is not a listed type."),
      ("collect_errors",
        flagSchema "Generated checks collect every violation instead of failing fast.")])]

/-- The schema, with where the file is and its format. -/
def fileDescription : Json :=
  .object [("config_path", .string path), ("format", .string "toml"), ("schema", schema)]

end SchemaTypes.Settings
