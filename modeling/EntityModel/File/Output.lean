import EntityModel.Conversion
import EntityModel.File.Access
import EntityModel.Json.Dump
import EntityModel.Text.Blank

/-!
# Writing outputs

The outputs of a conversion are written into one directory. All their names are checked before the
first of them is written.
-/

namespace EntityModel.Output

/-- The name of the file that the entity model is written to. -/
def modelFile : String := "entities.model.json"

/-- What is wrong with the name of an output, if anything is: it has to be a plain name in the
output directory. -/
def nameFault? (name : String) : Option NameFault :=
  let chars := name.toList
  if chars.all Text.isBlank then some .blank
  else if chars.head? = some '/' then some .absolute
  else if (Path.split [] chars).contains ['.', '.'] then some .traversal
  else if chars.contains '/' || chars.contains '\\' then some .separator
  else none

/-- The failure of the first name that is refused. -/
def checkNames : List String → Except Failure Unit
  | [] => .ok ()
  | name :: rest =>
    match nameFault? name with
    | some fault => .error (.outputName name fault)
    | none => checkNames rest

/-- The text of the file that the entity model is written to. -/
def modelText (entities : List Entity) : String := (Json.ofEntities entities).text

/-- The files that are written for a conversion, in order: its outputs, then the entity model if it
is wanted. -/
def files (conversion : Conversion) (withModel : Bool) : List (String × String) :=
  conversion.outputs.entries ++
    if withModel then [(modelFile, modelText conversion.entities)] else []

section

variable {m : Type → Type} [Monad m] [FileAccess m]

/-- Writes files into a directory, one after the other. -/
def writeAll (directory : Path) : List (String × String) → ExceptT Failure m Unit
  | [] => pure ()
  | (name, content) :: rest => do
    FileAccess.ask (FileAccess.write (directory.child name) content)
    writeAll directory rest

/-- Writes a conversion into a directory, which is made if it does not exist; the answer is the
names of the files, in order. -/
def write (directory : Path) (conversion : Conversion) (withModel : Bool) :
    ExceptT Failure m (List String) := do
  checkNames conversion.outputs.keys
  FileAccess.ask (FileAccess.makeDirectories directory)
  let written := files conversion withModel
  writeAll directory written
  return written.map Prod.fst

end

end EntityModel.Output
