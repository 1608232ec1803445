import SchemaTypes.Building.Process
import SchemaTypes.CommandLine.Arguments
import SchemaTypes.Configuration.SettingsFile
import SchemaTypes.Evaluation.Basic
/-!
# Running a command line

All files are read and registered before any is processed, so references between them
resolve whatever their order.  Then the types are written, and a value is checked against the type of the
last file if one is given.  What has been written before a failure stays written.

`run` works in any monad that can read files.
-/
namespace SchemaTypes.CommandLine

inductive Failure where
  | unreadable (path : String)
  | unparsable (path : String)
  | unprocessable (path : String) (fault : SchemaFault)
  /-- The recursion of schemas has no end on the way down. -/
  | endless (path : String)

def Failure.message : Failure → String
  | unreadable path => "failed to read " ++ path
  | unparsable path => "failed to parse " ++ path
  | unprocessable path fault =>
    "failed to process " ++ path ++ ": " ++ fault.message
      ++ (match fault.detail? with
          | some detail => ": " ++ detail
          | none => "")
  | endless path => "failed to process " ++ path ++ ": schemas nest without end"

/-- How a run ends: what it writes, and why it failed, if it did.  A value that is not valid is
written about, and is no failure of the run. -/
structure Report where
  code : Nat
  output : String := ""
  failure : Option Failure := none

/-- The files a run can read. -/
structure Files (m : Type → Type) where
  isFile : String → m Bool
  /-- The text of a file, if it can be read. -/
  read : String → m (Option String)

/-- A run that may end early. -/
abbrev Run (m : Type → Type) := ExceptT Failure m

def readText {m : Type → Type} [Monad m] (files : Files m) (path : String) : Run m String := do
  match ← (files.read path : m _) with
  | some text => return text
  | none => throw (.unreadable path)

def readJson {m : Type → Type} [Monad m] (files : Files m) (path : String) : Run m Json := do
  match Json.parse? (← readText files path) with
  | some value => return value
  | none => throw (.unparsable path)

def readSettings {m : Type → Type} [Monad m] (files : Files m) (path : String) : Run m Settings := do
  match Settings.ofToml? (← readText files path) with
  | some settings => return settings
  | none => throw (.unparsable path)

/-- The settings of the file that is asked for, or of the project's if it has any. -/
def loadSettings {m : Type → Type} [Monad m] (files : Files m) (config : Option String) :
    Run m Settings := do
  match config with
  | some path => readSettings files path
  | none => if ← (files.isFile Settings.path : m _) then readSettings files Settings.path else return {}

/-- A file's document and its path. -/
structure Input where
  path : String
  source : Source
  document : Json

def readInput {m : Type → Type} [Monad m] (files : Files m) (namespaceName path : String) :
    Run m Input := do
  return { path, source := Source.ofPath path namespaceName, document := ← readJson files path }

/-! ## Processing -/

/-- Process documents in order.  Answers the session and the type of the last document. -/
def processAll (config : Config) :
    Session → Option TypeId → List Input → Except Failure (Session × Option TypeId)
  | session, last, [] => .ok (session, last)
  | session, _, input :: rest =>
    match session.process config input.source input.document with
    | (.ok type, session) => processAll config session (some type) rest
    | (.error (.refused fault), _) => .error (.unprocessable input.path fault)
    | (.error .exhausted, _) => .error (.endless input.path)

def registerAll (inputs : List Input) : Session :=
  inputs.foldl (fun session input => session.register input.source input.document) {}

/-- The types as written, with a line break between and behind them. -/
def rendered (format : Format) (graph : Graph) : String :=
  "\n".intercalate (graph.generated.map (format.render graph)) ++ "\n"

/-- The graph of the files, and the type of the last one. -/
def build {m : Type → Type} [Monad m] (files : Files m) (invocation : Invocation) (settings : Settings) :
    Run m (Graph × Option TypeId) := do
  let inputs ← invocation.files.mapM (readInput files invocation.namespaceName)
  let (session, last) ← ExceptT.mk (pure (processAll { settings } (registerAll inputs) none inputs))
  return (session.graph, last)

/-! ## Checking a value -/

/-- Whether the value of a file is valid, and what is written about it. -/
def check {m : Type → Type} [Monad m] (files : Files m) (graph : Graph) (mode : Mode) (type : TypeId)
    (path : String) : Run m (Bool × String) := do
  let value ← readJson files path
  match graph.evaluate mode type value with
  | none => throw (.endless path)
  | some result =>
    return (result.isValid, if result.isValid then path ++ " is valid\n" else result.report.text)

/-! ## The whole run -/

def generate {m : Type → Type} [Monad m] (files : Files m) (invocation : Invocation) : m Report := do
  let prepared := do
    let settings ← loadSettings files invocation.config
    return (settings, ← build files invocation settings)
  match ← prepared.run with
  | .error failure => return { code := 1, failure := some failure }
  | .ok (settings, graph, last) =>
    let output := rendered invocation.format graph
    match invocation.instanceFile, last with
    | some path, some type =>
      match ← (check files graph settings.mode type path).run with
      | .error failure => return { code := 1, output, failure := some failure }
      | .ok (valid, text) => return { code := if valid then 0 else 1, output := output ++ text }
    | _, _ => return { code := 0, output }

/-- Run a command line.  One without a reading ends with code two. -/
def run {m : Type → Type} [Monad m] (files : Files m) (arguments : List String) : m Report := do
  match Invocation.ofArguments? arguments with
  | none => return { code := 2 }
  | some invocation =>
    if invocation.showSchema then
      return { code := 0, output := Settings.fileDescription.indentedText ++ "\n" }
    else generate files invocation

end SchemaTypes.CommandLine
