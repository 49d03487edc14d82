import EntityModel.Naming
import Mathlib.Data.List.TakeWhile

/-!
# Extensions of file names

The extension of a file name stands behind the last point of its last component, and a directory in
front of the name should not matter. It does not, unless the only point of the component is its
first character: alone such a name has no extension, behind a directory it is taken for one as a
whole (`keepsDirectory_iff`).
-/

namespace EntityModel.Naming

/-- Whether a file name behind a directory gets its extension as it does alone. -/
def KeepsDirectory (directory base extension : String) : Prop :=
  withExtension (directory ++ "/" ++ base) extension =
    directory ++ "/" ++ withExtension base extension

/-- Whether the only point of a name is its first character. -/
def IsHidden (name : String) : Prop := ∃ rest, name.toList = '.' :: rest ∧ '.' ∉ rest

variable {name front extension directory base : List Char}

/-! ## The last point of a name -/

theorem forall_reverse_ne (hpoint : '.' ∉ extension) :
    ∀ char ∈ extension.reverse, decide (char ≠ '.') = true := by
  intro char hchar
  rw [decide_eq_true_iff]
  rintro rfl
  exact hpoint (List.mem_reverse.mp hchar)

/-- A name without a point is its own stem. -/
theorem stem_of_not_mem (hpoint : '.' ∉ name) : stem name = name := by
  have htake : name.reverse.takeWhile (· ≠ '.') = name.reverse :=
    List.takeWhile_eq_self_iff.mpr (forall_reverse_ne hpoint)
  rw [stem, htake]
  simp

/-- The stem of a name ends at its last point, unless nothing stands in front of the point or a
directory ends behind it. -/
theorem stem_append_point (hpoint : '.' ∉ extension) :
    stem (front ++ '.' :: extension) =
      if front ≠ [] ∧ '/' ∉ extension ∧ '\\' ∉ extension then front
      else front ++ '.' :: extension := by
  have htake : (front ++ '.' :: extension).reverse.takeWhile (· ≠ '.') = extension.reverse := by
    rw [List.reverse_append, List.reverse_cons, List.append_assoc, List.singleton_append,
      List.takeWhile_append_of_pos (forall_reverse_ne hpoint),
      List.takeWhile_cons_of_neg (by simp), List.append_nil]
  have hkept : (front ++ '.' :: extension).length - (extension.length + 1) = front.length := by
    simp
  have hsplits : (extension.reverse.any fun char => char == '/' || char == '\\') = false ↔
      '/' ∉ extension ∧ '\\' ∉ extension := by
    rw [List.any_reverse, List.any_eq_false]
    constructor
    · exact fun hfree => ⟨fun hslash => hfree _ hslash rfl, fun hslash => hfree _ hslash rfl⟩
    · rintro ⟨hslash, hback⟩ char hchar heq
      rw [Bool.or_eq_true, beq_iff_eq, beq_iff_eq] at heq
      rcases heq with rfl | rfl
      · exact hslash hchar
      · exact hback hchar
  have hlength : extension.reverse.length < (front ++ '.' :: extension).length := by
    simp only [List.length_reverse, List.length_append, List.length_cons]
    omega
  rw [stem, htake]
  simp only [List.length_reverse, hkept, List.take_left, Bool.and_eq_true, Bool.not_eq_true',
    hsplits, decide_eq_true_iff, List.length_pos_iff]
  rw [List.length_reverse] at hlength
  simp only [hlength, true_and]

theorem point_cases (name : List Char) :
    '.' ∉ name ∨ ∃ front extension, name = front ++ '.' :: extension ∧ '.' ∉ extension := by
  by_cases hpoint : '.' ∈ name
  · obtain ⟨behind, front, heq, hbehind⟩ := List.eq_append_cons_of_mem (List.mem_reverse.mpr hpoint)
    refine Or.inr ⟨front.reverse, behind.reverse, ?_, by simpa using hbehind⟩
    rw [← List.reverse_inj, heq]
    simp
  · exact Or.inl hpoint

/-! ## Behind a directory -/

theorem stem_hidden (hpoint : '.' ∉ extension) : stem ('.' :: extension) = '.' :: extension := by
  have hstem : stem ([] ++ '.' :: extension) = _ := stem_append_point hpoint
  rwa [if_neg fun hfront => hfront.1 rfl] at hstem

/-- Behind a directory nothing is left of a name that is hidden. -/
theorem stem_directory_hidden (hpoint : '.' ∉ extension)
    (hfree : '/' ∉ extension ∧ '\\' ∉ extension) :
    stem (directory ++ '/' :: '.' :: extension) = directory ++ ['/'] := by
  have hsplit : directory ++ '/' :: '.' :: extension = directory ++ ['/'] ++ '.' :: extension := by
    rw [List.append_assoc, List.singleton_append]
  rw [hsplit, stem_append_point hpoint, if_pos ⟨by simp, hfree⟩]

/-- Any other name without separators keeps its stem behind a directory. -/
theorem stem_directory (hbase : '/' ∉ base ∧ '\\' ∉ base)
    (hshown : ∀ extension, base = '.' :: extension → '.' ∈ extension) :
    stem (directory ++ '/' :: base) = directory ++ '/' :: stem base := by
  rcases point_cases base with hpoint | ⟨front, extension, rfl, hpoint⟩
  · -- A point of the directory is the last one then, but the separator stands behind it.
    rw [stem_of_not_mem hpoint]
    rcases point_cases directory with hfree | ⟨before, between, rfl, hbetween⟩
    · exact stem_of_not_mem (by simp [hfree, hpoint])
    · rw [List.append_assoc, List.cons_append, stem_append_point (by simp [hbetween, hpoint]),
        if_neg (by simp)]
  · have hfront : front ≠ [] := by
      rintro rfl
      exact hpoint (hshown extension rfl)
    have hfree : '/' ∉ extension ∧ '\\' ∉ extension := by simp_all
    have hsplit : directory ++ '/' :: (front ++ '.' :: extension) =
        directory ++ '/' :: front ++ '.' :: extension := by
      rw [List.append_assoc, List.cons_append]
    rw [hsplit, stem_append_point hpoint, if_pos ⟨by simp, hfree⟩, stem_append_point hpoint,
      if_pos ⟨hfront, hfree⟩]

theorem withExtension_directory (directory base extension : String) :
    withExtension (directory ++ "/" ++ base) extension =
      String.ofList (stem (directory.toList ++ '/' :: base.toList) ++
        '.' :: extension.toList.dropWhile (· = '.')) := by
  rw [withExtension, String.toList_append, String.toList_append, List.append_assoc]
  rfl

/-- A directory in front of a name without separators makes no difference for its extension exactly
if the name is not hidden. Behind a directory a hidden name gives way to the extension as if nothing
stood there. -/
theorem keepsDirectory_iff (directory extension : String) {base : String}
    (hbase : ∀ char ∈ base.toList, char ≠ '/' ∧ char ≠ '\\') :
    (KeepsDirectory directory base extension ↔ ¬ IsHidden base) ∧
      (IsHidden base → withExtension (directory ++ "/" ++ base) extension =
        withExtension (directory ++ "/") extension) := by
  have hfree : '/' ∉ base.toList ∧ '\\' ∉ base.toList :=
    ⟨fun hmem => (hbase _ hmem).1 rfl, fun hmem => (hbase _ hmem).2 rfl⟩
  have hjoined : directory ++ "/" ++ withExtension base extension =
      String.ofList (directory.toList ++ '/' :: (stem base.toList ++
        '.' :: extension.toList.dropWhile (· = '.'))) := by
    rw [← String.toList_inj, withExtension]
    simp
  have hlost : ∀ {rest}, base.toList = '.' :: rest → '.' ∉ rest →
      stem (directory.toList ++ '/' :: base.toList) = directory.toList ++ ['/'] := by
    intro rest heq hpoint
    rw [heq] at hfree ⊢
    exact stem_directory_hidden hpoint (by simpa using hfree)
  refine ⟨⟨?_, fun hshown => ?_⟩, ?_⟩
  · rintro hkeeps ⟨rest, heq, hpoint⟩
    rw [KeepsDirectory, withExtension_directory, hjoined, String.ofList_inj, hlost heq hpoint, heq,
      stem_hidden hpoint, List.append_assoc, List.append_cancel_left_eq] at hkeeps
    -- On its own a hidden name is its stem, so one side is longer by the name.
    have hlength := congrArg List.length hkeeps
    simp only [List.length_append, List.length_cons, List.length_nil] at hlength
    omega
  · rw [KeepsDirectory, withExtension_directory, hjoined, stem_directory hfree, List.append_assoc,
      List.cons_append]
    intro rest heq
    by_contra hpoint
    exact hshown ⟨rest, heq, hpoint⟩
  · rintro ⟨rest, heq, hpoint⟩
    have hnothing : stem (directory.toList ++ '/' :: "".toList) = directory.toList ++ ['/'] := by
      rw [stem_directory (by simp) (by simp)]
      rfl
    have hbare := withExtension_directory directory "" extension
    rw [String.append_empty, hnothing] at hbare
    rw [withExtension_directory, hlost heq hpoint, hbare]

/-- A name with a point behind its first character. -/
theorem keepsDirectory_users :
    (∀ char ∈ "users.schema.ts".toList, char ≠ '/' ∧ char ≠ '\\') ∧
      KeepsDirectory "src/v1.2" "users.schema.ts" "js" := by
  have hbase : ∀ char ∈ "users.schema.ts".toList, char ≠ '/' ∧ char ≠ '\\' := by simp
  refine ⟨hbase, (keepsDirectory_iff "src/v1.2" "js" hbase).1.mpr ?_⟩
  rintro ⟨rest, heq, -⟩
  cases heq

/-- A hidden file of a directory. -/
theorem not_keepsDirectory_hidden : ¬ ∀ directory base extension : String,
    (∀ char ∈ base.toList, char ≠ '/' ∧ char ≠ '\\') →
      KeepsDirectory directory base extension := by
  intro hall
  have hkeeps := hall "src" ".hidden" "js" (by simp)
  have hlost : withExtension ("src" ++ "/" ++ ".hidden") "js" = "src/.js" := by decide +kernel
  have halone : "src" ++ "/" ++ withExtension ".hidden" "js" = "src/.hidden.js" := by decide +kernel
  rw [KeepsDirectory, hlost, halone] at hkeeps
  exact absurd hkeeps (by decide)

end EntityModel.Naming
