import EntityModel.File.Output
import EntityModel.Report

/-!
# The command line

Running a conversion of the source files of a directory.
-/

namespace EntityModel.CommandLine

/-- What a run is asked for. -/
structure Settings where
  inputDirectory : String
  outputDirectory : String
  extension : String
  withModel : Bool
  verbose : Bool

/-- What a run ends with. -/
structure Outcome where
  code : Nat
  stdout : String
  stderr : String

/-- A run that failed, with the line that says why. -/
def Outcome.failed (line : String) : Outcome := ⟨2, "", line ++ "\n"⟩

/-- Whether a file is a source file: its name has the extension `ts`. -/
def isSourceName (name : String) : Bool :=
  let chars := name.toList
  chars.drop (Naming.stem chars).length = ".ts".toList

section

variable {m : Type → Type} [Monad m] [FileAccess m]

/-- The names among some that are those of source files in a directory. -/
def sourceNames (directory : Path) : List String → ExceptT FileError m (List String)
  | [] => return []
  | name :: rest => do
    let isFile ← (FileAccess.isFile (directory.child name) : m Bool)
    let others ← sourceNames directory rest
    return if isFile && isSourceName name then name :: others else others

/-- The contents of files in a directory. -/
def readFiles (directory : Path) : List String → ExceptT FileError m (List SourceFile)
  | [] => return []
  | name :: rest => do
    let content ← ExceptT.mk (FileAccess.read (directory.child name))
    return ⟨name, content⟩ :: (← readFiles directory rest)

def readSources (directory : Path) : ExceptT FileError m (List SourceFile) := do
  let names ← sourceNames directory (← ExceptT.mk (FileAccess.list directory))
  readFiles directory (names.mergeSort fun first second => !decide (second < first))

def report (settings : Settings) (conversion : Conversion) : Outcome where
  code := 0
  stdout := Report.summary conversion settings.outputDirectory ++ "\n"
  stderr := if settings.verbose then Report.details conversion else ""

/-- The options of the conversion that a run makes. -/
def Settings.options (settings : Settings) : Options where
  builders := Builders.usual
  extension := String.ofList (settings.extension.toList.dropWhile (· = '.'))

/-- Converts the source files of a directory and writes their outputs. -/
def run (parser : TreeParser) (settings : Settings) : m Outcome := do
  match ← (readSources (.ofText settings.inputDirectory)).run with
  | .error error =>
    return .failed ("Error reading " ++ settings.inputDirectory ++ ": " ++ error.message)
  | .ok [] => return .failed ("No .ts files found in " ++ settings.inputDirectory)
  | .ok sources =>
    match Conversion.ofFiles parser settings.options sources with
    | .error failure => return .failed ("Conversion error: " ++ failure.message)
    | .ok conversion =>
      let directory := Path.ofText settings.outputDirectory
      match ← (Output.write directory conversion settings.withModel).run with
      | .error failure => return .failed ("Error writing output: " ++ failure.message)
      | .ok _ => return report settings conversion

end

end EntityModel.CommandLine
