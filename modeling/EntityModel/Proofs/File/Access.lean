import EntityModel.File.Tree

/-!
# Programs on trees of files

What a program that asks for files answers on a tree of files, and which tree it leaves. Requests
that read leave the tree as it is.
-/

namespace EntityModel.FileTree

variable {ε α β : Type} {tree : FileTree}

/-- What a program answers on a tree of files, and the tree that it leaves. -/
def run (tree : FileTree) (program : ExceptT ε (StateM FileTree) α) : Except ε α × FileTree :=
  (StateT.run (ExceptT.run program) tree).run

@[simp] theorem run_pure (answer : α) :
    tree.run (pure answer : ExceptT ε (StateM FileTree) α) = (.ok answer, tree) := rfl

theorem run_bind (program : ExceptT ε (StateM FileTree) α)
    (next : α → ExceptT ε (StateM FileTree) β) : tree.run (program >>= next) =
      match tree.run program with
      | (.ok answer, after) => after.run (next answer)
      | (.error failure, after) => (.error failure, after) := by
  unfold run ExceptT.run StateT.run Id.run
  simp only [bind, ExceptT.bind, ExceptT.mk, StateT.bind, ExceptT.bindCont]
  cases program tree with
  | mk result after => cases result <;> rfl

theorem run_bind_of_ok {program : ExceptT ε (StateM FileTree) α} {answer : α}
    {after : FileTree} (hprogram : tree.run program = (.ok answer, after))
    (next : α → ExceptT ε (StateM FileTree) β) :
    tree.run (program >>= next) = after.run (next answer) := by
  rw [run_bind, hprogram]

theorem run_bind_of_error {program : ExceptT ε (StateM FileTree) α} {failure : ε}
    {after : FileTree} (hprogram : tree.run program = (.error failure, after))
    (next : α → ExceptT ε (StateM FileTree) β) :
    tree.run (program >>= next) = (.error failure, after) := by
  rw [run_bind, hprogram]

/-- A request whose failure is that of the program. -/
theorem run_ask (request : StateM FileTree (Except FileError α)) :
    tree.run (FileAccess.ask request) =
      ((request.run tree).1.mapError .file, (request.run tree).2) := by
  have hlift : tree.run (liftM request : ExceptT Failure (StateM FileTree) _) =
      (.ok (request.run tree).1, (request.run tree).2) := rfl
  rw [FileAccess.ask, run_bind_of_ok hlift]
  cases (request.run tree).1 <;> rfl

def isFile (tree : FileTree) (path : Path) : Bool :=
  match tree.at? path with
  | some (.file _) => true
  | _ => false

theorem run_isFile (path : Path) :
    tree.run (liftM (FileAccess.isFile path : StateM FileTree Bool) :
      ExceptT ε (StateM FileTree) Bool) = (.ok (tree.isFile path), tree) := rfl

theorem run_list (path : Path) :
    tree.run (ExceptT.mk (FileAccess.list path)) = (tree.list path, tree) := rfl

theorem run_read (path : Path) :
    tree.run (ExceptT.mk (FileAccess.read path)) = (tree.read path, tree) := rfl

theorem run_makeDirectories (path : Path) :
    tree.run (FileAccess.ask (FileAccess.makeDirectories path)) =
      ((tree.makeDirectories path).1.mapError .file, (tree.makeDirectories path).2) := by
  rw [run_ask]
  rfl

theorem run_write (path : Path) (content : String) :
    tree.run (FileAccess.ask (FileAccess.write path content)) =
      match tree.write path content with
      | .ok after => (.ok (), after)
      | .error error => (.error (.file error), tree) := by
  have hrequest : StateT.run (FileAccess.write path content :
      StateM FileTree (Except FileError Unit)) tree =
      match tree.write path content with
      | .ok after => (.ok (), after)
      | .error error => (.error error, tree) := by
    change StateT.run (do
      match (← get).write path content with
      | .ok after =>
        set after
        return .ok ()
      | .error error => return .error error : StateM FileTree (Except FileError Unit)) tree = _
    rw [StateT.run_bind]
    simp only [StateT.run_get, pure_bind]
    cases tree.write path content <;> rfl
  rw [run_ask, hrequest]
  cases tree.write path content <;> rfl

/-- What stands at a place can be read if it is a file. -/
theorem read_eq_ok_of_at? {path : Path} {content : String}
    (hat : tree.at? path = some (.file content)) : tree.read path = .ok content := by
  unfold at? at hat
  unfold read
  cases hplace : tree.locate path with
  | error error =>
      rw [hplace] at hat
      cases hat
  | ok place =>
      rw [hplace] at hat
      simp only [bind, Except.bind, hat]
      rfl

end EntityModel.FileTree
