import EntityModel.File.Output
import Mathlib.Data.List.Basic

/-!
# Names of outputs

The name of an output should be plain: one part of a path that leads to something in a directory,
whatever character separates the parts. Exactly the plain names and the point, which leads to the
directory itself, are accepted (`nameFault?_eq_none_iff`).
-/

namespace EntityModel

namespace Path

/-- A part of a path. -/
inductive Component where
  | root
  /-- The directory itself. -/
  | current
  /-- The directory that it is in. -/
  | parent
  | normal (name : List Char)
deriving DecidableEq

/-- What a part between slashes stands for behind others. Nothing and a point lead nowhere. -/
def Component.ofPart? : List Char → Option Component
  | [] => none
  | ['.'] => none
  | ['.', '.'] => some .parent
  | part => some (.normal part)

theorem Component.ofPart?_eq_normal_iff (part name : List Char) :
    ofPart? part = some (.normal name) ↔
      part = name ∧ part ≠ [] ∧ part ≠ ['.'] ∧ part ≠ ['.', '.'] := by
  unfold ofPart?
  split <;> simp_all

/-- The parts of a path. A slash in front is the root, and a point counts in front only. -/
def components (path : List Char) : List Component :=
  match path.splitOn '/' with
  | [] :: rest@(_ :: _) => .root :: rest.filterMap Component.ofPart?
  | ['.'] :: rest => .current :: rest.filterMap Component.ofPart?
  | parts => parts.filterMap Component.ofPart?

theorem split_eq_splitOn (part path : List Char) :
    split part path = (path.splitOn '/').modifyHead (part.reverse ++ ·) := by
  induction path generalizing part with
  | nil => simp [split, List.splitOn_nil]
  | cons char rest ih =>
      rw [split, List.splitOn_cons_eq_if_modifyHead]
      by_cases hslash : char = '/'
      · simp only [hslash, if_true, beq_self_eq_true, ih, List.modifyHead_cons, List.append_nil]
        cases rest.splitOn '/' <;> rfl
      · simp only [beq_iff_eq, hslash, if_false, ih, List.modifyHead_modifyHead]
        congr 1
        funext first
        simp

/-- Without slashes a path has one part, which is a name unless it is nothing or points only. -/
theorem components_eq_normal_iff {path : List Char} (hslash : '/' ∉ path) :
    components path = [.normal path] ↔ path ≠ [] ∧ path ≠ ['.'] ∧ path ≠ ['.', '.'] := by
  rw [components, List.splitOn_eq_singleton hslash]
  split
  next heq => simp at heq
  next rest heq => simp_all
  next =>
    have hpart := Component.ofPart?_eq_normal_iff path path
    cases hresult : Component.ofPart? path <;> simp_all

end Path

namespace Output

/-- Whether a name is that of something directly in a directory, on every system. -/
structure IsPlainName (name : String) : Prop where
  not_blank : ∃ char ∈ name.toList, Text.isBlank char = false
  slash_not_mem : '/' ∉ name.toList
  backslash_not_mem : '\\' ∉ name.toList
  components_eq : Path.components name.toList = [.normal name.toList]

/-- A name is accepted if it is not blank, has no separators and is not two points. -/
theorem nameFault?_eq_none_iff_forall {name : String} : nameFault? name = none ↔
    (∃ char ∈ name.toList, Text.isBlank char = false) ∧ '/' ∉ name.toList ∧
      '\\' ∉ name.toList ∧ name.toList ≠ ['.', '.'] := by
  unfold nameFault?
  generalize name.toList = chars
  dsimp only
  constructor
  · intro hnone
    split_ifs at hnone with hblank _ hparent hseparator
    obtain ⟨hslash, hbackslash⟩ : '/' ∉ chars ∧ '\\' ∉ chars := by simpa using hseparator
    rw [Path.split_eq_splitOn, List.splitOn_eq_singleton hslash] at hparent
    refine ⟨by simpa using hblank, hslash, hbackslash, fun heq => hparent ?_⟩
    rw [heq]
    rfl
  · rintro ⟨hblank, hslash, hbackslash, hparent⟩
    have hparts : Path.split [] chars = [chars] := by
      rw [Path.split_eq_splitOn, List.splitOn_eq_singleton hslash]
      rfl
    have hhead : chars.head? ≠ some '/' := fun hhead => hslash (List.mem_of_head? hhead)
    simp [hparts, hslash, hhead, hblank, hbackslash, Ne.symm hparent]

/-- Beside the plain names, a single point is accepted. -/
theorem nameFault?_eq_none_iff {name : String} :
    nameFault? name = none ↔ IsPlainName name ∨ name = "." := by
  rw [nameFault?_eq_none_iff_forall]
  constructor
  · rintro ⟨hblank, hslash, hbackslash, hparent⟩
    by_cases hpoint : name = "."
    · exact Or.inr hpoint
    · refine Or.inl ⟨hblank, hslash, hbackslash, (Path.components_eq_normal_iff hslash).mpr ?_⟩
      obtain ⟨char, hmem, _⟩ := hblank
      exact ⟨List.ne_nil_of_mem hmem, fun heq => hpoint (String.toList_injective heq), hparent⟩
  · rintro (⟨hblank, hslash, hbackslash, hcomponents⟩ | rfl)
    · have hparts := (Path.components_eq_normal_iff hslash).mp hcomponents
      exact ⟨hblank, hslash, hbackslash, hparts.2.2⟩
    · exact ⟨⟨'.', by decide, by decide⟩, by decide, by decide, by decide⟩

end Output

end EntityModel
