import EntityModel.File.Output
import EntityModel.Proofs.File.Access
import EntityModel.Proofs.File.Names
import EntityModel.Proofs.File.Tree
import Mathlib.Data.List.TakeWhile

/-!
# Writing files

Files are written into a directory up to the first one whose name or place does not take it
(`run_writeAll`), and a conversion is written after its names are checked and the directory is made
(`run_write_eq`, `run_write_eq_ok_iff`).
-/

namespace EntityModel

open EntityModel.Path (enter)

/-- What holds of some item holds of a last one. -/
theorem exists_last {α : Type} (holds : α → Prop) {items : List α}
    (hsome : ∃ item ∈ items, holds item) :
    ∃ front last back, items = front ++ last :: back ∧ holds last ∧
      ∀ item ∈ back, ¬ holds item := by
  induction items with
  | nil => simp at hsome
  | cons item items ih =>
      by_cases hlater : ∃ item ∈ items, holds item
      · obtain ⟨front, last, back, rfl, hlast⟩ := ih hlater
        exact ⟨item :: front, last, back, rfl, hlast⟩
      · have hitem := ((List.exists_mem_cons_iff _ _ _).mp hsome).resolve_right hlater
        exact ⟨[], item, items, rfl, hitem, fun other hmem hother => hlater ⟨other, hmem, hother⟩⟩

namespace FileTree

variable {tree after : FileTree} {path directory : Path} {place : List String} {name : String}

/-- Whether a directory takes a file of a name: the name can be one, and it does not lead to a
directory. -/
def Takes (tree : FileTree) (place : List String) (name : String) : Prop :=
  IsFileName name ∧ tree.node? (enter place name) ≠ some .directory

instance (tree : FileTree) (place : List String) (name : String) :
    Decidable (tree.Takes place name) := inferInstanceAs (Decidable (_ ∧ _))

theorem HasDirectory.write_of_takes (hpath : tree.HasDirectory path)
    (htakes : tree.Takes path.place name) (content : String) :
    tree.write (path.child name) content =
      .ok (tree.put (enter path.place name) (.file content)) := by
  rw [write, hpath.locate_child htakes.1]
  simp only [bind, Except.bind]
  split
  next hnode => exact absurd hnode htakes.2
  next => rfl

theorem HasDirectory.write_of_not_takes (hpath : tree.HasDirectory path)
    (hnot : ¬ tree.Takes path.place name) (content : String) :
    ∃ error, tree.write (path.child name) content = .error error := by
  by_cases hname : IsFileName name
  · have hnode : tree.node? (enter path.place name) = some .directory :=
      not_not.mp fun hnode => hnot ⟨hname, hnode⟩
    refine ⟨.isDirectory, ?_⟩
    rw [write, hpath.locate_child hname]
    simp only [bind, Except.bind, hnode]
  · rw [write, Path.child, hpath.locate_below, walk_cons]
    cases hcheck : checkName name with
    | error error => exact ⟨error, rfl⟩
    | ok _ => exact absurd (checkName_eq_ok_iff.mp hcheck) hname

/-- Whether directories stand at the same places in two trees. -/
def SameDirectories (tree after : FileTree) : Prop :=
  ∀ place, after.node? place = some .directory ↔ tree.node? place = some .directory

theorem sameDirectories_put (hplace : tree.node? place ≠ some .directory) (content : String) :
    SameDirectories tree (tree.put place (.file content)) := by
  intro other
  rw [node?_put (ne_nil_of_node? hplace)]
  split
  next heq =>
    subst heq
    exact ⟨nofun, fun hnode => absurd hnode hplace⟩
  next => rfl

namespace SameDirectories

theorem walk {names other : List String} (hsame : SameDirectories tree after)
    (hwalk : tree.walk place names = .ok other) : after.walk place names = .ok other := by
  obtain ⟨hnames, hpassed, heq⟩ := walk_eq_ok_iff.mp hwalk
  exact walk_eq_ok_iff.mpr
    ⟨hnames, fun passed hmem => (hsame passed).mpr (hpassed passed hmem), heq⟩

theorem hasDirectory (hsame : SameDirectories tree after) (hpath : tree.HasDirectory path) :
    after.HasDirectory path :=
  ⟨hsame.walk hpath.1, (hsame _).mpr hpath.2⟩

theorem takes_iff (hsame : SameDirectories tree after) :
    after.Takes place name ↔ tree.Takes place name := by
  rw [Takes, Takes, ne_eq, ne_eq, hsame]

end SameDirectories

/-- A tree after files of a directory were given their texts, one after the other. -/
def putAll (tree : FileTree) (place : List String) : List (String × String) → FileTree
  | [] => tree
  | (name, content) :: rest => (tree.put (enter place name) (.file content)).putAll place rest

section

variable {files front back : List (String × String)} {content : String}

theorem putAll_append (tree : FileTree) (place : List String)
    (files others : List (String × String)) :
    tree.putAll place (files ++ others) = (tree.putAll place files).putAll place others := by
  induction files generalizing tree with
  | nil => rfl
  | cons file files ih => exact ih _

/-- A file that a directory takes does not keep it from taking others. -/
theorem forall_takes_put (hfiles : ∀ file ∈ (name, content) :: files, tree.Takes place file.1) :
    ∀ file ∈ files, (tree.put (enter place name) (.file content)).Takes place file.1 := by
  obtain ⟨hfile, hrest⟩ := List.forall_mem_cons.mp hfiles
  have hsame := sameDirectories_put hfile.2 content
  exact fun file hmem => hsame.takes_iff.mpr (hrest file hmem)

theorem sameDirectories_putAll (hfiles : ∀ file ∈ files, tree.Takes place file.1) :
    SameDirectories tree (tree.putAll place files) := by
  induction files generalizing tree with
  | nil => exact fun _ => Iff.rfl
  | cons file files ih =>
      obtain ⟨name, content⟩ := file
      have hfile := hfiles _ List.mem_cons_self
      intro other
      rw [putAll, ih (forall_takes_put hfiles), sameDirectories_put hfile.2 content]

/-- Only the places of the files change. -/
theorem node?_putAll_of_ne (hfiles : ∀ file ∈ files, tree.Takes place file.1) {other : List String}
    (hne : ∀ file ∈ files, other ≠ enter place file.1) :
    (tree.putAll place files).node? other = tree.node? other := by
  induction files generalizing tree with
  | nil => rfl
  | cons file files ih =>
      obtain ⟨name, content⟩ := file
      obtain ⟨hother, hne⟩ := List.forall_mem_cons.mp hne
      have hfile := hfiles _ List.mem_cons_self
      rw [putAll, ih (forall_takes_put hfiles) hne, node?_put (ne_nil_of_node? hfile.2),
        if_neg hother]

/-- Of files with one name the last one stays. -/
theorem node?_putAll_of_last
    (hfiles : ∀ file ∈ front ++ (name, content) :: back, tree.Takes place file.1)
    (hproper : ∀ file ∈ front ++ (name, content) :: back, Path.IsProper file.1)
    (hlast : ∀ file ∈ back, file.1 ≠ name) :
    (tree.putAll place (front ++ (name, content) :: back)).node? (place ++ [name]) =
      some (.file content) := by
  have hfront := sameDirectories_putAll fun file hmem =>
    hfiles file (List.mem_append_left _ hmem)
  have hback : ∀ file ∈ (name, content) :: back,
      (tree.putAll place front).Takes place file.1 := fun file hmem =>
    hfront.takes_iff.mpr (hfiles file (List.mem_append_right _ hmem))
  have hname : enter place name = place ++ [name] :=
    Path.enter_of_isProper (hproper _ (List.mem_append_right _ List.mem_cons_self)) place
  have hapart : ∀ file ∈ back, place ++ [name] ≠ enter place file.1 := by
    intro file hmem heq
    have hfile := hproper file (List.mem_append_right _ (List.mem_cons_of_mem _ hmem))
    rw [Path.enter_of_isProper hfile] at heq
    exact hlast file hmem (by simpa using heq.symm)
  rw [putAll_append, putAll, node?_putAll_of_ne (forall_takes_put hback) hapart, hname,
    node?_put (by simp), if_pos rfl]

end

end FileTree

namespace Output

open FileTree

variable {tree : FileTree} {directory : Path} {conversion : Conversion} {withModel : Bool}

/-- The files among some that are written: those before the first one that a directory does not
take. -/
def taken (tree : FileTree) (place : List String) (files : List (String × String)) :
    List (String × String) :=
  files.takeWhile fun file => tree.Takes place file.1

theorem taken_eq_self {place : List String} {files : List (String × String)}
    (hfiles : ∀ file ∈ files, tree.Takes place file.1) : taken tree place files = files :=
  List.takeWhile_eq_self_iff.mpr fun file hmem => decide_eq_true (hfiles file hmem)

theorem takes_of_mem_taken {place : List String} {files : List (String × String)}
    {file : String × String} (hmem : file ∈ taken tree place files) : tree.Takes place file.1 := by
  have htakes := List.mem_takeWhile_imp hmem
  exact of_decide_eq_true htakes

/-- Files are written one after the other while the directory takes them. -/
theorem run_writeAll_cons (hdirectory : tree.HasDirectory directory) {name : String}
    (htakes : tree.Takes directory.place name) (content : String)
    (rest : List (String × String)) : tree.run (writeAll directory ((name, content) :: rest)) =
      (tree.put (enter directory.place name) (.file content)).run (writeAll directory rest) := by
  have hwrite : tree.run (FileAccess.ask (FileAccess.write (directory.child name) content)) =
      (.ok (), tree.put (enter directory.place name) (.file content)) := by
    rw [FileTree.run_write, hdirectory.write_of_takes htakes]
  rw [writeAll, run_bind_of_ok hwrite]

theorem run_writeAll (hdirectory : tree.HasDirectory directory) {files : List (String × String)}
    (hfiles : ∀ file ∈ files, tree.Takes directory.place file.1) :
    tree.run (writeAll directory files) = (.ok (), tree.putAll directory.place files) := by
  induction files generalizing tree with
  | nil => rfl
  | cons file files ih =>
      obtain ⟨name, content⟩ := file
      have hfile := hfiles _ List.mem_cons_self
      have hsame := sameDirectories_put hfile.2 content
      rw [run_writeAll_cons hdirectory hfile, putAll]
      exact ih (hsame.hasDirectory hdirectory) (forall_takes_put hfiles)

/-- Where the directory does not take a file, those before it stay written. -/
theorem run_writeAll_of_not_takes (hdirectory : tree.HasDirectory directory)
    {files : List (String × String)} (hnot : ∃ file ∈ files, ¬ tree.Takes directory.place file.1) :
    ∃ error, tree.run (writeAll directory files) =
      (.error (.file error), tree.putAll directory.place (taken tree directory.place files)) := by
  induction files generalizing tree with
  | nil =>
      obtain ⟨_, hmem, _⟩ := hnot
      cases hmem
  | cons file files ih =>
      obtain ⟨name, content⟩ := file
      by_cases hfile : tree.Takes directory.place name
      · -- The file changes no directory, so the others are taken or not as before.
        have hsame := sameDirectories_put hfile.2 content
        have hrest : ∃ file ∈ files, ¬ tree.Takes directory.place file.1 := by
          simpa [hfile] using hnot
        obtain ⟨error, hrun⟩ := ih (hsame.hasDirectory hdirectory)
          (by simpa only [hsame.takes_iff] using hrest)
        refine ⟨error, ?_⟩
        rw [run_writeAll_cons hdirectory hfile, hrun, taken, taken,
          List.takeWhile_cons_of_pos (by simpa using hfile), putAll]
        simp only [hsame.takes_iff]
      · obtain ⟨error, hwrite⟩ := hdirectory.write_of_not_takes hfile content
        have hask : tree.run (FileAccess.ask (FileAccess.write (directory.child name) content)) =
            (.error (.file error), tree) := by
          rw [FileTree.run_write, hwrite]
        refine ⟨error, ?_⟩
        rw [writeAll, run_bind_of_error hask, taken,
          List.takeWhile_cons_of_neg (by simpa using hfile), putAll]

/-! ## Writing a conversion -/

theorem checkNames_eq_ok_iff {names : List String} :
    checkNames names = .ok () ↔ ∀ name ∈ names, nameFault? name = none := by
  induction names with
  | nil => simp [checkNames]
  | cons name names ih =>
      rw [checkNames, List.forall_mem_cons]
      cases nameFault? name <;> simp [ih]

/-- Where names are accepted and the directory can be made, files are written. -/
theorem run_write_of_isClear
    (hnames : ∀ name ∈ conversion.outputs.keys, nameFault? name = none)
    (hclear : tree.IsClear directory) : tree.run (write directory conversion withModel) =
      (tree.made directory).run (do
        writeAll directory (files conversion withModel)
        return (files conversion withModel).map Prod.fst) := by
  have hmake : tree.run (FileAccess.ask (FileAccess.makeDirectories directory)) =
      (.ok (), tree.made directory) := by
    rw [FileTree.run_makeDirectories, makeDirectories_of_isClear hclear]
    rfl
  unfold write
  rw [checkNames_eq_ok_iff.mpr hnames]
  exact run_bind_of_ok hmake _

theorem run_write_of_not_isClear (withModel : Bool)
    (hnames : ∀ name ∈ conversion.outputs.keys, nameFault? name = none)
    (hclear : ¬ tree.IsClear directory) :
    ∃ error, tree.run (write directory conversion withModel) =
      (.error (.file error), tree.made directory) := by
  rw [← makeDirectories_eq_ok_iff] at hclear
  cases hmade : (tree.makeDirectories directory).1 with
  | ok _ => exact absurd hmade hclear
  | error error =>
      have hmake : tree.run (FileAccess.ask (FileAccess.makeDirectories directory)) =
          (.error (.file error), tree.made directory) := by
        rw [FileTree.run_makeDirectories, hmade]
        rfl
      refine ⟨error, ?_⟩
      unfold write
      rw [checkNames_eq_ok_iff.mpr hnames]
      exact run_bind_of_error hmake _

/-- A conversion is written if its names are accepted, its directory can be made, and that takes
all files. -/
theorem run_write (hnames : ∀ name ∈ conversion.outputs.keys, nameFault? name = none)
    (hclear : tree.IsClear directory) (hfiles : ∀ file ∈ files conversion withModel,
      (tree.made directory).Takes directory.place file.1) :
    tree.run (write directory conversion withModel) =
      (.ok ((files conversion withModel).map Prod.fst),
        (tree.made directory).putAll directory.place (files conversion withModel)) := by
  rw [run_write_of_isClear hnames hclear,
    run_bind_of_ok (run_writeAll (hasDirectory_made hclear) hfiles), run_pure]

theorem run_write_of_not_takes
    (hnames : ∀ name ∈ conversion.outputs.keys, nameFault? name = none)
    (hclear : tree.IsClear directory) (hnot : ∃ file ∈ files conversion withModel,
      ¬ (tree.made directory).Takes directory.place file.1) :
    ∃ error, tree.run (write directory conversion withModel) =
      (.error (.file error), (tree.made directory).putAll directory.place
        (taken (tree.made directory) directory.place (files conversion withModel))) := by
  obtain ⟨error, hrun⟩ := run_writeAll_of_not_takes (hasDirectory_made hclear) hnot
  exact ⟨error, by rw [run_write_of_isClear hnames hclear, run_bind_of_error hrun]⟩

/-- Writing ends well in no other case. -/
theorem run_write_eq_ok_iff {after : FileTree} {written : List String} :
    tree.run (write directory conversion withModel) = (.ok written, after) ↔
      (∀ name ∈ conversion.outputs.keys, nameFault? name = none) ∧ tree.IsClear directory ∧
      (∀ file ∈ files conversion withModel, (tree.made directory).Takes directory.place file.1) ∧
      written = (files conversion withModel).map Prod.fst ∧
      after = (tree.made directory).putAll directory.place (files conversion withModel) := by
  constructor
  · intro hrun
    -- Whichever condition fails first, the run ends with an error.
    have hnames : ∀ name ∈ conversion.outputs.keys, nameFault? name = none := by
      rw [← checkNames_eq_ok_iff]
      cases hcheck : checkNames conversion.outputs.keys with
      | ok _ => rfl
      | error failure =>
          unfold write at hrun
          rw [hcheck] at hrun
          cases hrun
    have hclear : tree.IsClear directory := by
      by_contra hclear
      obtain ⟨error, herror⟩ := run_write_of_not_isClear withModel hnames hclear
      rw [herror] at hrun
      cases hrun
    have hfiles : ∀ file ∈ files conversion withModel,
        (tree.made directory).Takes directory.place file.1 := by
      by_contra hnot
      push Not at hnot
      obtain ⟨error, herror⟩ := run_write_of_not_takes hnames hclear hnot
      rw [herror] at hrun
      cases hrun
    rw [run_write hnames hclear hfiles] at hrun
    cases hrun
    exact ⟨hnames, hclear, hfiles, rfl, rfl⟩
  · rintro ⟨hnames, hclear, hfiles, rfl, rfl⟩
    exact run_write hnames hclear hfiles

end Output

end EntityModel
