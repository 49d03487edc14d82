import EntityModel.Collection.SortedMap
import EntityModel.Context.Passes
import EntityModel.Schema.Declaration
import EntityModel.Syntax.Reading

/-!
# Conversion

Source files are converted together: either all of them are well formed, or none is converted. Each
file that declares tables becomes one output.
-/

namespace EntityModel

structure SourceFile where
  name : String
  content : String

structure Options where
  builders : Builders
  extension : String

namespace Options

/-- The usual builders, and outputs with the extension `js`. -/
def usual : Options := ⟨Builders.usual, "js"⟩

end Options

structure Conversion where
  /-- The text of each output by its name. -/
  outputs : SortedMap String
  /-- The entities, in the order in which their tables were first declared. -/
  entities : List Entity

namespace SourceFile

/-- The module that a file is. -/
def parse (parser : TreeParser) (file : SourceFile) : Except Failure Module :=
  parser.module file.name file.content

end SourceFile

namespace Conversion

/-- The modules of files; the failure is that of the first one that cannot be read. -/
def modules (parser : TreeParser) : List SourceFile → Except Failure (List Module)
  | [] => .ok []
  | file :: rest => do
    let parsed ← file.parse parser
    let others ← modules parser rest
    return parsed :: others

/-- The output of a file, if it declares tables: its name and its text. -/
def output? (catalog : Catalog) (extension : String) (file : SourceFile) :
    Option (String × String) :=
  match catalog.entitiesIn file.name with
  | [] => none
  | entities => some (Naming.withExtension file.name extension, Schema.fileText entities)

/-- The outputs of files. Of two with one name the later stays. -/
def outputsOf (catalog : Catalog) (extension : String) (files : List SourceFile) :
    SortedMap String :=
  SortedMap.ofList (files.filterMap (output? catalog extension))

def ofFiles (parser : TreeParser) (options : Options) (files : List SourceFile) :
    Except Failure Conversion := do
  let catalog := (Context.ofModules options.builders (← modules parser files)).catalog
  return ⟨outputsOf catalog options.extension files, catalog.entities⟩

end Conversion

end EntityModel
