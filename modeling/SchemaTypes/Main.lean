import SchemaTypes.CommandLine.Run
/-!
# The program

Reads files and writes to the standard streams; everything else is `CommandLine.run`.
-/
namespace SchemaTypes

/-- The files of the working directory. -/
def workingFiles : CommandLine.Files IO where
  isFile path := do
    try
      let place ← IO.FS.realPath path
      return (← place.pathExists) && !(← place.isDir)
    catch _ => return false
  read path := try some <$> IO.FS.readFile path catch _ => pure none

def usage : String :=
  "usage: schematypes [--namespace NAME] [--config FILE] [--format outline|json] [--check FILE] [-v] FILE...\n"
    ++ "       schematypes --schema"

end SchemaTypes

def main (arguments : List String) : IO UInt32 := do
  let report ← SchemaTypes.CommandLine.run SchemaTypes.workingFiles arguments
  IO.print report.output
  match report.failure with
  | some failure => IO.eprintln ("error: " ++ failure.message)
  | none => if report.code = 2 then IO.eprintln SchemaTypes.usage
  return report.code.toUInt32
