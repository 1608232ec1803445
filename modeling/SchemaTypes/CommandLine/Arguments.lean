import SchemaTypes.Rendering.Format
/-!
# Command line arguments

The arguments name files, in the order they are processed, and options between them.  An option
that takes a value has it behind an equals sign or as the next argument, which must not look like an
option; it is given at most once.  Behind `--` every argument is a file.  A faulty command line has no
reading.
-/
namespace SchemaTypes.CommandLine

/-- What a command line asks for. -/
structure Invocation where
  files : List String := []
  namespaceName : String := ""
  /-- The settings file, if not the project's. -/
  config : Option String := none
  format : Format := .outline
  /-- A file with a value to check against the last type. -/
  instanceFile : Option String := none
  showSchema : Bool := false
  verbosity : Nat := 0
deriving DecidableEq, Repr

/-- The options that take a value. -/
inductive Setting where
  | namespaceName
  | config
  | format
  | instanceFile
deriving DecidableEq, Repr

namespace Setting

def ofWord? : String → Option Setting
  | "namespace" => some .namespaceName
  | "config" => some .config
  | "format" => some .format
  | "check" => some .instanceFile
  | _ => none

end Setting

/-- What has been read so far. -/
structure Given where
  files : List String := []
  settings : List (Setting × String) := []
  showSchema : Bool := false
  verbosity : Nat := 0

namespace Given

/-- A path has at least one character. -/
def addFile? (given : Given) (file : String) : Option Given :=
  if file.isEmpty then none else some { given with files := given.files ++ [file] }

def set? (given : Given) (setting : Setting) (value : String) : Option Given :=
  if (given.settings.lookup setting).isSome then none
  else some { given with settings := given.settings ++ [(setting, value)] }

def flag? (given : Given) (word : String) : Option Given :=
  if word = "verbose" then some { given with verbosity := given.verbosity + 1 }
  else if word = "schema" ∧ ¬ given.showSchema then some { given with showSchema := true }
  else none

/-- A group of one-letter options. -/
def letters? (given : Given) (letters : List Char) : Option Given :=
  if letters.all (· = 'v') then some { given with verbosity := given.verbosity + letters.length }
  else none

end Given

/-- Whether an argument is read as an option rather than as a value.  A hyphen alone is a value. -/
def looksLikeOption (argument : String) : Bool :=
  match argument.toList with
  | '-' :: _ :: _ => true
  | _ => false

/-- The name of a long option, and the value attached to it by an equals sign. -/
def splitOption (word : List Char) : String × Option String :=
  (String.ofList (word.takeWhile (· ≠ '=')),
    match word.dropWhile (· ≠ '=') with
    | [] => none
    | _ :: value => some (String.ofList value))

/-- Read arguments in order.  `pending` is an option that waits for its value. -/
def read? (given : Given) (pending : Option Setting) : List String → Option Given
  | [] => if pending.isSome then none else some given
  | argument :: rest =>
    match pending with
    | some setting =>
      if looksLikeOption argument then none
      else (given.set? setting argument).bind (read? · none rest)
    | none =>
      match argument.toList with
      | ['-', '-'] => rest.foldlM Given.addFile? given
      | '-' :: '-' :: word =>
        let (name, attached) := splitOption word
        match Setting.ofWord? name, attached with
        | some setting, some value => (given.set? setting value).bind (read? · none rest)
        | some setting, none => read? given (some setting) rest
        | none, some _ => none
        | none, none => (given.flag? name).bind (read? · none rest)
      | '-' :: letter :: letters =>
        (given.letters? (letter :: letters)).bind (read? · none rest)
      | _ => (given.addFile? argument).bind (read? · none rest)

/-- A path under an option, if it is given; it must not be empty. -/
def pathOf? (given : Given) (setting : Setting) : Option (Option String) :=
  match given.settings.lookup setting with
  | some value => if value.isEmpty then none else some (some value)
  | none => some none

def formatOf? (given : Given) : Option Format :=
  match given.settings.lookup .format with
  | some value => Format.ofName? value
  | none => some .outline

/-- The reading of a command line.  Without files there has to be `--schema`. -/
def Invocation.ofArguments? (arguments : List String) : Option Invocation := do
  let given ← read? {} none arguments
  let invocation : Invocation := {
    files := given.files
    namespaceName := (given.settings.lookup .namespaceName).getD ""
    config := ← pathOf? given .config
    format := ← formatOf? given
    instanceFile := ← pathOf? given .instanceFile
    showSchema := given.showSchema
    verbosity := given.verbosity }
  if given.files.isEmpty ∧ ¬ given.showSchema then none else some invocation

end SchemaTypes.CommandLine
