import EntityModel.Proofs.Literal.Elements
import EntityModel.Schema.Fields
import Mathlib.Tactic.SplitIfs

/-!
# Reading quoted text

A quoted text is a string literal for the text itself: its escapes stand for the characters that
were escaped. It stays on one line, as do all texts that a schema is written with, and a reader that
looks for the closing quote finds its end whatever stands behind it (`quoted_isLiteral`). A key of
an object reads as itself, whether it is quoted or not.
-/

namespace EntityModel

namespace Schema

open Literal

theorem unescape_escapeChar_append (char : Char) (text : List Char) :
    unescape (escapeChar char ++ text) = char :: unescape text := by
  unfold escapeChar
  split_ifs with hslash hquote hfeed hreturn htab
  · simp [unescape_backslash, simpleEscape?, hslash]
  · simp [unescape_backslash, simpleEscape?, hquote]
  · simp [unescape_backslash, simpleEscape?, hfeed]
  · simp [unescape_backslash, simpleEscape?, hreturn]
  · simp [unescape_backslash, simpleEscape?, htab]
  · exact unescape_cons_of_ne hslash text

theorem unescape_flatMap_escapeChar (value : List Char) :
    unescape (value.flatMap escapeChar) = value := by
  induction value with
  | nil => exact unescape_nil
  | cons char value ih => rw [List.flatMap_cons, unescape_escapeChar_append, ih]

theorem stringValue_quoted (value : String) : stringValue (quoted value).toList = value := by
  have hunquote : unquote (quoted value).toList = value.toList.flatMap escapeChar := by
    simp [quoted, quoteChars, unquote]
  rw [stringValue, hunquote, unescape_flatMap_escapeChar, String.ofList_toList]

theorem lineBreak_not_mem_quoted {char : Char} (hchar : char = '\n' ∨ char = '\r')
    (value : String) : char ∉ (quoted value).toList := by
  have hescape : ∀ other, char ∉ escapeChar other := by
    intro other
    unfold escapeChar
    rcases hchar with rfl | rfl <;> split_ifs <;> simp_all [eq_comm]
  rcases hchar with rfl | rfl <;> simp [quoted, quoteChars, hescape]

theorem newline_not_mem_quoted (value : String) : '\n' ∉ (quoted value).toList :=
  lineBreak_not_mem_quoted (Or.inl rfl) value

/-! ## Where a literal ends -/

/-- What stands up to the closing quote of a string literal, and the text behind that. A backslash
is stepped over with the character behind it. -/
def closing? : List Char → Option (List Char × List Char)
  | [] => none
  | '\x27' :: rest => some (['\x27'], rest)
  | '\\' :: char :: text => (closing? text).map (Prod.map (['\\', char] ++ ·) id)
  | char :: text => (closing? text).map (Prod.map ([char] ++ ·) id)

/-- The string literal in single quotes that a text starts with, and the text behind it. -/
def literal? : List Char → Option (List Char × List Char)
  | '\x27' :: text => (closing? text).map (Prod.map (['\x27'] ++ ·) id)
  | _ => none

/-- An escaped character does not close a literal. -/
theorem closing?_escapeChar_append (char : Char) (text : List Char) :
    closing? (escapeChar char ++ text) =
      (closing? text).map (Prod.map (escapeChar char ++ ·) id) := by
  unfold escapeChar
  split_ifs with hslash hquote
  any_goals rfl
  rw [List.singleton_append, closing?]
  · exact hquote
  · exact fun _ _ heq => absurd heq hslash

theorem closing?_flatMap_escapeChar (value rest : List Char) :
    closing? (value.flatMap escapeChar ++ '\x27' :: rest) =
      some (value.flatMap escapeChar ++ ['\x27'], rest) := by
  induction value with
  | nil => rfl
  | cons char value ih =>
      rw [List.flatMap_cons, List.append_assoc, closing?_escapeChar_append, ih, Option.map_some,
        Prod.map, List.append_assoc, id]

theorem literal?_quoted_append (value : String) (rest : List Char) :
    literal? ((quoted value).toList ++ rest) = some ((quoted value).toList, rest) := by
  have hchars : (quoted value).toList =
      '\x27' :: (value.toList.flatMap escapeChar ++ ['\x27']) := by
    rw [quoted, quoteChars, String.toList_ofList]
  rw [hchars, List.cons_append, List.append_assoc, List.singleton_append, literal?,
    closing?_flatMap_escapeChar]
  rfl

theorem quoted_injective : Function.Injective quoted := by
  intro first second heq
  rw [← stringValue_quoted first, heq, stringValue_quoted]

/-- A quoted text is a string literal on one line that ends where it is written to end, whatever
stands behind it, and stands for the text. So a literal is that of one text only, and no literal
starts another one. -/
theorem quoted_isLiteral :
    (∀ value rest, literal? ((quoted value).toList ++ rest) = some ((quoted value).toList, rest)) ∧
    (∀ value, '\n' ∉ (quoted value).toList ∧ '\r' ∉ (quoted value).toList) ∧
    (∀ value, stringValue (quoted value).toList = value) ∧
    Function.Injective quoted ∧
    (∀ first second, (quoted first).toList <+: (quoted second).toList ↔ first = second) := by
  refine ⟨literal?_quoted_append, fun value => ?_, stringValue_quoted, quoted_injective,
    fun first second => ⟨?_, ?_⟩⟩
  · exact ⟨lineBreak_not_mem_quoted (Or.inl rfl) value, lineBreak_not_mem_quoted (Or.inr rfl) value⟩
  · rintro ⟨rest, heq⟩
    have hfirst := literal?_quoted_append first rest
    rw [heq, ← List.append_nil (quoted second).toList, literal?_quoted_append] at hfirst
    obtain ⟨hsame, -⟩ := Prod.mk.inj (Option.some.inj hfirst)
    exact quoted_injective (String.toList_inj.mp hsame.symm)
  · rintro rfl
    exact List.prefix_rfl

/-! ## Keys -/

theorem isKeyChar_of_isPlainKey {key : List Char} (hplain : isPlainKey key = true) :
    (∃ first rest, key = first :: rest ∧ isKeyChar first = true) ∧
      ∀ char ∈ key, isKeyChar char = true := by
  cases key with
  | nil => cases hplain
  | cons first rest =>
      simp only [isPlainKey, Bool.and_eq_true, List.all_eq_true] at hplain
      exact ⟨⟨first, rest, rfl, hplain.1.1⟩, List.forall_mem_cons.mpr ⟨hplain.1.1, hplain.2⟩⟩

theorem ne_of_isKeyChar {char other : Char} (hkey : isKeyChar char = true)
    (hother : isKeyChar other = false) : char ≠ other := by
  rintro rfl
  rw [hkey] at hother
  cases hother

theorem unescape_of_forall_isKeyChar {key : List Char}
    (hkey : ∀ char ∈ key, isKeyChar char = true) : unescape key = key := by
  have hread := unescape_append_of_bare (fun char hmem => ne_of_isKeyChar (hkey char hmem) rfl) []
  rwa [List.append_nil, unescape_nil, List.append_nil] at hread

theorem stringValue_objectKey (key : String) : stringValue (objectKey key).toList = key := by
  unfold objectKey
  split_ifs with hplain
  · obtain ⟨⟨first, rest, hchars, hfirst⟩, hkey⟩ := isKeyChar_of_isPlainKey hplain
    have hdouble : first ≠ '\x22' := ne_of_isKeyChar hfirst rfl
    have hsingle : first ≠ '\x27' := ne_of_isKeyChar hfirst rfl
    have hback : first ≠ '\x60' := ne_of_isKeyChar hfirst rfl
    have hunquote : unquote key.toList = key.toList := by
      simp [hchars, unquote, hdouble, hsingle, hback]
    rw [stringValue, hunquote, unescape_of_forall_isKeyChar hkey, String.ofList_toList]
  · exact stringValue_quoted key

theorem newline_not_mem_objectKey (key : String) : '\n' ∉ (objectKey key).toList := by
  unfold objectKey
  split_ifs with hplain
  · intro hmem
    have hkey := (isKeyChar_of_isPlainKey hplain).2 _ hmem
    exact ne_of_isKeyChar hkey rfl rfl
  · exact newline_not_mem_quoted key

/-- A key starts with a character of plain keys or with a quotation mark. -/
theorem exists_objectKey_eq (key : String) : ∃ first rest, (objectKey key).toList = first :: rest ∧
    (isKeyChar first = true ∨ first = '\x27') := by
  unfold objectKey
  split_ifs with hplain
  · obtain ⟨⟨first, rest, hchars, hfirst⟩, _⟩ := isKeyChar_of_isPlainKey hplain
    exact ⟨first, rest, hchars, Or.inl hfirst⟩
  · exact ⟨'\x27', _, String.toList_ofList, Or.inr rfl⟩

end Schema

end EntityModel
