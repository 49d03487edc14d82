import EntityModel.File.Access

/-!
# Trees of files

A file system as a value: what stands at each place below the working directory. The working
directory itself always stands.
-/

namespace EntityModel

inductive Node where
  | directory
  | file (content : String)
deriving DecidableEq

/-- A file system, as the places below its root at which something stands. -/
structure FileTree where
  entries : List (List String × Node)

namespace FileTree

def empty : FileTree := ⟨[]⟩

def node? (tree : FileTree) (place : List String) : Option Node :=
  if place.isEmpty then some .directory else tree.entries.lookup place

/-- Puts something at a place, instead of what stands there. -/
def putEntry (place : List String) (node : Node) :
    List (List String × Node) → List (List String × Node)
  | [] => [(place, node)]
  | (other, old) :: rest =>
    if other = place then (place, node) :: rest else (other, old) :: putEntry place node rest

/-- Puts something at a place, instead of what stands there. -/
def put (tree : FileTree) (place : List String) (node : Node) : FileTree :=
  ⟨putEntry place node tree.entries⟩

def namesIn (tree : FileTree) (place : List String) : List String :=
  tree.entries.filterMap fun (other, _) =>
    if other.dropLast = place then other.getLast? else none

/-- Whether a name can be that of a file. -/
def checkName (name : String) : Except FileError Unit :=
  if name.toList.contains '\x00' then .error .invalidName
  else if 255 < name.utf8ByteSize then .error .nameTooLong
  else .ok ()

/-- Needs a directory at a place. -/
def checkDirectory (tree : FileTree) (place : List String) : Except FileError Unit :=
  match tree.node? place with
  | some .directory => .ok ()
  | some (.file _) => .error .notDirectory
  | none => .error .notFound

/-- The place that names lead to from another one. Every name but the last leads through a
directory; one point stays, and two points lead back. -/
def walk (tree : FileTree) (place : List String) : List String → Except FileError (List String)
  | [] => .ok place
  | name :: rest => do
    checkName name
    tree.checkDirectory place
    if name = "" || name = "." then tree.walk place rest
    else if name = ".." then tree.walk place.dropLast rest
    else tree.walk (place ++ [name]) rest

/-- The place of a path. -/
def locate (tree : FileTree) (path : Path) : Except FileError (List String) :=
  tree.walk [] path.names

def at? (tree : FileTree) (path : Path) : Option Node :=
  match tree.locate path with
  | .ok place => tree.node? place
  | .error _ => none

def list (tree : FileTree) (path : Path) : Except FileError (List String) := do
  let place ← tree.locate path
  tree.checkDirectory place
  return tree.namesIn place

def read (tree : FileTree) (path : Path) : Except FileError String := do
  let place ← tree.locate path
  match tree.node? place with
  | some (.file content) => return content
  | some .directory => .error .isDirectory
  | none => .error .notFound

/-- Gives a file a text; the file is made if it does not exist. -/
def write (tree : FileTree) (path : Path) (content : String) : Except FileError FileTree := do
  let place ← tree.locate path
  match tree.node? place with
  | some .directory => .error .isDirectory
  | _ => return tree.put place (.file content)

/-- Makes the directories that names lead through from a place on. The directories that were made
before a failure stay. -/
def makeAlong (place : List String) :
    List String → FileTree → Except FileError Unit × FileTree
  | [], tree => (tree.checkDirectory place, tree)
  | name :: rest, tree =>
    match checkName name, tree.checkDirectory place with
    | .error error, _ => (.error error, tree)
    | .ok _, .error error => (.error error, tree)
    | .ok _, .ok _ =>
      if name = "" || name = "." then makeAlong place rest tree
      else if name = ".." then makeAlong place.dropLast rest tree
      else
        let next := place ++ [name]
        match tree.node? next with
        | some _ => makeAlong next rest tree
        | none => makeAlong next rest (tree.put next .directory)

/-- Makes a directory and those that it is in, as far as they do not exist. -/
def makeDirectories (tree : FileTree) (path : Path) : Except FileError Unit × FileTree :=
  makeAlong [] path.names tree

end FileTree

/-- A program that runs on a tree of files. -/
instance : FileAccess (StateM FileTree) where
  list path := do
    return (← get).list path
  isFile path := do
    return match (← get).at? path with
      | some (.file _) => true
      | _ => false
  read path := do
    return (← get).read path
  write path content := do
    match (← get).write path content with
    | .ok tree =>
      set tree
      return .ok ()
    | .error error => return .error error
  makeDirectories path := do
    let (answer, tree) := (← get).makeDirectories path
    set tree
    return answer

end EntityModel
