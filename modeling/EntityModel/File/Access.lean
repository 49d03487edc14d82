import EntityModel.Failure
import EntityModel.Text.Lines

/-!
# Access to files

What a program asks of a file system, so that it can run on the files of the machine and on a tree
of files that is a value.
-/

namespace EntityModel

/-- A place in a file system: a path as the user wrote it, and names below it. -/
structure Path where
  base : String
  below : List String

namespace Path

def ofText (text : String) : Path := ⟨text, []⟩

/-- The place of a name in a directory. -/
def child (directory : Path) (name : String) : Path :=
  { directory with below := directory.below ++ [name] }

def text (path : Path) : String := Text.joinWith "/" (path.base :: path.below)

/-- The parts of a text between slashes, from a part on that is read already. -/
def split (part : List Char) : List Char → List (List Char)
  | [] => [part.reverse]
  | char :: rest => if char = '/' then part.reverse :: split [] rest else split (char :: part) rest

/-- The names that a path consists of, from the working directory on. -/
def names (path : Path) : List String :=
  (split [] path.base.toList).map String.ofList ++ path.below

end Path

/-- What a program may ask of the file system that it runs on. -/
class FileAccess (m : Type → Type) where
  /-- The names in a directory, in any order. -/
  list : Path → m (Except FileError (List String))
  isFile : Path → m Bool
  read : Path → m (Except FileError String)
  /-- Gives a file a text; the file is made if it does not exist. -/
  write : Path → String → m (Except FileError Unit)
  /-- Makes a directory and those that it is in, as far as they do not exist. -/
  makeDirectories : Path → m (Except FileError Unit)

namespace FileAccess

variable {m : Type → Type} [Monad m]

/-- A request to the file system whose failure is the failure of the program. -/
def ask {α : Type} (request : m (Except FileError α)) : ExceptT Failure m α := do
  match ← (request : m _) with
  | .ok answer => return answer
  | .error error => throw (.file error)

end FileAccess

end EntityModel
