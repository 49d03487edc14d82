import EntityModel.CommandLine

/-!
# The arguments of the program

How the program reads its arguments into the settings of a run.
-/

namespace EntityModel.Arguments

inductive ValueOption where
  | inputDirectory
  | outputDirectory
  | repository
  | folder
  | extension
deriving DecidableEq

namespace ValueOption

def ofName? (name : String) : Option ValueOption :=
  [("input-dir", inputDirectory), ("output-dir", outputDirectory), ("repo", repository),
    ("subfolder", folder), ("extension", extension)].lookup name

/-- Whether an option takes a value: those that name directories need a name. -/
def accepts : ValueOption → String → Bool
  | .inputDirectory, value => value ≠ ""
  | .outputDirectory, value => value ≠ ""
  | _, _ => true

end ValueOption

inductive Switch where
  | emitModel
  | verbose
deriving DecidableEq

namespace Switch

def ofName? (name : String) : Option Switch :=
  [("emit-model", emitModel), ("verbose", verbose)].lookup name

end Switch

structure Given where
  values : List (ValueOption × String)
  switches : List Switch

inductive Request where
  | help
  | refused
  /-- To convert sources that are fetched from a repository. -/
  | fetch (repository : String)
  | convert (settings : CommandLine.Settings)

/-- Notes the value of an option, which may be given once. -/
def Given.withValue? (given : Given) (option : ValueOption) (value : String) : Option Given :=
  if (given.values.lookup option).isSome || !option.accepts value then none
  else some { given with values := (option, value) :: given.values }

/-- Notes a switch, which may be given once. -/
def Given.withSwitch? (given : Given) (switch : Switch) : Option Given :=
  if given.switches.contains switch then none
  else some { given with switches := switch :: given.switches }

/-- What the options that were read amount to. A repository and a folder need each other. -/
def Given.request (given : Given) : Request :=
  let value (option : ValueOption) (usual : String) := (given.values.lookup option).getD usual
  match given.values.lookup .repository, given.values.lookup .folder with
  | none, none =>
    .convert {
      inputDirectory := value .inputDirectory "drizzle"
      outputDirectory := value .outputDirectory "typeorm-output"
      extension := value .extension "js"
      withModel := given.switches.contains .emitModel
      verbose := given.switches.contains .verbose }
  | some repository, some _ => .fetch repository
  | _, _ => .refused

/-- The name of a long option and the value attached to it. -/
def splitOption (chars : List Char) : String × Option String :=
  let name := String.ofList (chars.takeWhile (· ≠ '='))
  match chars.dropWhile (· ≠ '=') with
  | [] => (name, none)
  | _ :: value => (name, some (String.ofList value))

/-- Whether an argument can be the value of the option in front of it. -/
def isValue (argument : String) : Bool :=
  argument = "-" || argument.toList.head? ≠ some '-'

/-- Reads arguments behind those that were read. The first that cannot be understood refuses them
all, unless help was asked for in front of it. -/
def readArguments (given : Given) : List String → Request
  | [] => given.request
  | argument :: rest =>
    match argument.toList with
    | ['-', 'h'] => .help
    | ['-', '-'] => if rest.isEmpty then given.request else .refused
    | '-' :: '-' :: chars =>
      let (name, attached) := splitOption chars
      match name, attached, ValueOption.ofName? name, Switch.ofName? name with
      | "help", none, _, _ => .help
      | _, some value, some option, _ =>
        match given.withValue? option value with
        | some next => readArguments next rest
        | none => .refused
      | _, none, some option, _ =>
        match rest with
        | value :: others =>
          if isValue value then
            match given.withValue? option value with
            | some next => readArguments next others
            | none => .refused
          else .refused
        | [] => .refused
      | _, none, none, some switch =>
        match given.withSwitch? switch with
        | some next => readArguments next rest
        | none => .refused
      | _, _, _, _ => .refused
    | _ => .refused

def request (arguments : List String) : Request := readArguments ⟨[], []⟩ arguments

def helpText : String :=
  Text.unlines
    ["Convert table definitions into entity schema files",
      "",
      "Options:",
      "  --input-dir <DIR>    Directory holding the table definitions [default: drizzle]",
      "  --output-dir <DIR>   Output directory [default: typeorm-output]",
      "  --repo <REPO>        Repository to fetch the table definitions from",
      "  --subfolder <DIR>    Folder inside the repository that holds them",
      "  --extension <EXT>    Extension of the generated files [default: js]",
      "  --emit-model         Also write the entity model as JSON",
      "  --verbose            Print details of every entity",
      "  -h, --help           Print help"]

def usageText : String := "error: the arguments are not understood; see --help\n"

/-- Runs the program with arguments. Fetching a repository is not done here. -/
def run {m : Type → Type} [Monad m] [FileAccess m] (parser : TreeParser)
    (arguments : List String) : m CommandLine.Outcome := do
  match request arguments with
  | .help => return ⟨0, helpText, ""⟩
  | .refused => return ⟨2, "", usageText⟩
  | .fetch repository =>
    return .failed ("Error fetching " ++ repository ++ ": fetching is not supported")
  | .convert settings => CommandLine.run parser settings

end EntityModel.Arguments
