import EntityModel.File.Tree

/-!
# Flattening directories

All files below a directory are copied into another one under their own names alone. Of files with
one name the last stays, in the order of their paths, compared name by name.
-/

namespace EntityModel.FileTree

/-- The part of a place below another one, if it is below it. -/
def below? : (directory place : List String) → Option (List String)
  | [], [] => none
  | [], name :: rest => some (name :: rest)
  | _ :: _, [] => none
  | name :: rest, other :: others => if name = other then below? rest others else none

/-- The place of an entry relative to a directory, if it is that of a file below it. Files under
directories of the version control are left out. -/
def fileBelow? (directory : List String) : List String × Node → Option (List String)
  | (_, .directory) => none
  | (place, .file _) =>
    (below? directory place).filter fun relative => !relative.dropLast.contains ".git"

/-- The files below a directory, by their places relative to it. -/
def filesBelow (tree : FileTree) (directory : List String) : List (List String) :=
  tree.entries.filterMap (fileBelow? directory)

/-- The order of places: by their first names, then by their second ones, and so on. -/
def placeLe (first second : List String) : Bool := !decide (second < first)

/-- Copies files from places below one directory into another, each under its own name; the answer
is the names that were written, those of before included. -/
def copyAll (source target : Path) :
    List String → List (List String) → FileTree → Except Failure (List String) × FileTree
  | written, [], tree => (.ok written, tree)
  | written, relative :: rest, tree =>
    match relative.getLast? with
    | none => copyAll source target written rest tree
    | some name =>
      let copied := do
        let content ← tree.read { source with below := source.below ++ relative }
        tree.write (target.child name) content
      match copied with
      | .error error => (.error (.file error), tree)
      | .ok after =>
        copyAll source target (if written.contains name then written else written ++ [name]) rest
          after

/-- Copies files from places below one directory into another, in the order of their places; the
answer is the names of the copies, in order. -/
def flattenFiles (tree : FileTree) (source target : Path) (files : List (List String)) :
    Except Failure (List String) × FileTree :=
  let (answer, last) := copyAll source target [] (files.mergeSort placeLe) tree
  (answer.map fun written => written.mergeSort (fun first second => !decide (second < first)), last)

/-- Copies all files below one directory into another, which is made if it does not exist. -/
def flattenInto (tree : FileTree) (source target : Path) :
    Except Failure (List String) × FileTree :=
  match tree.makeDirectories target with
  | (.error error, after) => (.error (.file error), after)
  | (.ok _, after) =>
    match after.locate source with
    | .error error => (.error (.file error), after)
    | .ok place =>
      match after.checkDirectory place with
      | .error error => (.error (.file error), after)
      | .ok _ => after.flattenFiles source target (after.filesBelow place)

end EntityModel.FileTree
