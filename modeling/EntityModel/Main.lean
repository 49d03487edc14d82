import EntityModel.Arguments
import EntityModel.Syntax.Program

/-!
# The program

Runs the command line on the files of the machine.
-/

namespace EntityModel

/-- What a request to the system answers, or what it reports. -/
def answerOf {α : Type} (request : IO α) : IO (Except FileError α) := do
  try
    return .ok (← request)
  catch error =>
    return .error (.system (toString error))

/-- The place of a path on the machine, seen from the working directory. -/
def Path.entry (path : Path) : IO.FS.DirEntry := ⟨".", path.text⟩

/-- A program that runs on the files of the machine. -/
instance : FileAccess IO where
  list path := answerOf do
    return (← path.entry.path.readDir).toList.map (·.fileName)
  isFile path := do
    match ← answerOf path.entry.path.metadata with
    | .ok metadata => return metadata.type == .file
    | .error _ => return false
  read path := answerOf (IO.FS.readFile path.text)
  write path content := answerOf (IO.FS.writeFile path.text content)
  makeDirectories path := answerOf (IO.FS.createDirAll path.text)

end EntityModel

def main (arguments : List String) : IO UInt32 := do
  let outcome ← EntityModel.Arguments.run EntityModel.Syntax.parser arguments
  (← IO.getStderr).putStr outcome.stderr
  (← IO.getStdout).putStr outcome.stdout
  return outcome.code.toUInt32
