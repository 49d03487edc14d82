import EntityModel.Proofs.Literal.Spelling
import EntityModel.Schema.Quoted

/-!
# Identifiers

An identifier is made of characters of an alphabet, each written as itself or by its code point.
The characters beyond ASCII are left open. What stands in front of `Entity` makes an identifier with
it if it is empty or an identifier itself; a code point that lacks its last digit may take the first
letter of `Entity` for it (`isIdentifier_append_iff`).
-/

namespace EntityModel.Schema

open Literal

/-- The characters that identifiers are made of. Of those in ASCII they are the ones of plain keys,
and an ASCII digit does not start an identifier. -/
structure Alphabet where
  isStart : Char → Bool
  isPart : Char → Bool
  isStart_ascii : ∀ char, char.toNat < 128 →
    isStart char = (isKeyChar char && !Text.isAsciiDigit char)
  isPart_ascii : ∀ char, char.toNat < 128 → isPart char = isKeyChar char

/-- The words that name nothing. -/
def reservedWords : List (List Char) :=
  ["await", "break", "case", "catch", "class", "const", "continue", "debugger", "default",
    "delete", "do", "else", "enum", "export", "extends", "false", "finally", "for", "function",
    "if", "import", "in", "instanceof", "new", "null", "return", "super", "switch", "this",
    "throw", "true", "try", "typeof", "var", "void", "while", "with", "yield", "let", "static",
    "implements", "interface", "package", "private", "protected", "public", "eval",
    "arguments"].map String.toList

/-- Whether a text writes a character of an identifier: as itself or by its code point, in four
digits or between braces. -/
inductive Piece : (spelling : List Char) → (char : Char) → Prop
  | raw {char : Char} (hchar : char ≠ '\\') : Piece [char] char
  | unit {digits : List Char} {char : Char} (hdigits : IsHex 4 digits char.toNat) :
      Piece ('\\' :: 'u' :: digits) char
  | braced {count : Nat} {digits : List Char} {char : Char}
      (hdigits : IsHex count digits char.toNat) :
      Piece ('\\' :: 'u' :: '\x7b' :: (digits ++ ['\x7d'])) char

/-- A piece takes nothing of an `Entity` behind a text, or stands behind the text, or takes the `E`
for the last digit of a code point. -/
theorem Piece.cases_append {front back : List Char} {char : Char}
    (hpiece : Piece (front ++ back) char) (hback : back <+: "Entity".toList) :
    back = [] ∨ front = [] ∨ ∃ digits, front = '\\' :: 'u' :: digits ∧ back = ['E'] ∧
      IsHex 4 (digits ++ ['E']) char.toNat := by
  change back <+: ['E', 'n', 't', 'i', 't', 'y'] at hback
  generalize hspelling : front ++ back = spelling at hpiece
  cases hpiece with
  | raw =>
      rcases List.append_eq_singleton_iff.mp hspelling with ⟨hfront, -⟩ | ⟨-, hback⟩
      · exact Or.inr (Or.inl hfront)
      · exact Or.inl hback
  | @unit digits _ hdigits =>
      -- What is cut off stands behind the mark of the code point, where only digits are.
      match front, back with
      | _, [] => exact Or.inl rfl
      | [], _ => exact Or.inr (Or.inl rfl)
      | [_], letter :: _ =>
          obtain ⟨-, hmark⟩ := List.cons.inj hspelling
          obtain ⟨rfl, -⟩ := List.cons.inj hmark
          exact absurd (List.cons_prefix_cons.mp hback).1 (by decide)
      | _ :: _ :: front, letter :: back =>
          obtain ⟨rfl, hmark⟩ := List.cons.inj hspelling
          obtain ⟨rfl, rfl⟩ := List.cons.inj hmark
          obtain ⟨rfl, htail⟩ := List.cons_prefix_cons.mp hback
          cases back with
          | nil => exact Or.inr (Or.inr ⟨front, rfl, rfl, hdigits⟩)
          | cons letter back =>
              obtain ⟨rfl, -⟩ := List.cons_prefix_cons.mp htail
              obtain ⟨value, hdigit⟩ := exists_isDigit_of_mem hdigits.2 (by simp : 'n' ∈ _)
              rcases hdigit with hdigit | hdigit
              · exact absurd (List.mem_of_getElem? hdigit) (by decide)
              · exact absurd (List.mem_of_getElem? hdigit) (by decide)
  | @braced _ digits _ _ =>
      by_cases hempty : back = []
      · exact Or.inl hempty
      · -- The piece ends with a brace, which stands nowhere in `Entity`.
        have hlast : back.getLast? = some '\x7d' := by
          have hconcat : (('\\' :: 'u' :: '\x7b' :: digits) ++ ['\x7d']).getLast? = some '\x7d' :=
            List.getLast?_concat
          rwa [← List.getLast?_append_of_ne_nil front hempty, hspelling]
        exact absurd (hback.subset (List.mem_of_getLast? hlast)) (by decide)

namespace Alphabet

variable (alphabet : Alphabet)

/-- Whether a character may stand at a place of an identifier; `fresh` tells whether it is the
first. -/
def allows (fresh : Bool) (char : Char) : Bool :=
  if fresh then alphabet.isStart char else alphabet.isPart char

/-- Whether a text writes the characters of an identifier, from its first one on or behind it. -/
inductive Spells : (fresh : Bool) → (text name : List Char) → Prop
  | nil {fresh : Bool} : Spells fresh [] []
  | cons {fresh : Bool} {spelling rest name : List Char} {char : Char}
      (hpiece : Piece spelling char) (hchar : alphabet.allows fresh char = true)
      (hrest : Spells false rest name) : Spells fresh (spelling ++ rest) (char :: name)

/-- Whether a text is an identifier. -/
def IsIdentifier (text : List Char) : Prop :=
  ∃ name, alphabet.Spells true text name ∧ name ≠ [] ∧ name ∉ reservedWords

/-- Whether a text goes on an identifier except for the last digit of a code point, which is the
letter `E` behind it. -/
inductive IsOpen : (fresh : Bool) → (text : List Char) → Prop
  | last {fresh : Bool} {digits : List Char} {char : Char}
      (hdigits : IsHex 4 (digits ++ ['E']) char.toNat)
      (hchar : alphabet.allows fresh char = true) : IsOpen fresh ('\\' :: 'u' :: digits)
  | cons {fresh : Bool} {spelling rest : List Char} {char : Char}
      (hpiece : Piece spelling char) (hchar : alphabet.allows fresh char = true)
      (hrest : IsOpen false rest) : IsOpen fresh (spelling ++ rest)

/-- The alphabet without characters beyond ASCII. -/
def ascii : Alphabet where
  isStart char := isKeyChar char && !Text.isAsciiDigit char
  isPart := isKeyChar
  isStart_ascii _ _ := rfl
  isPart_ascii _ _ := rfl

instance : Inhabited Alphabet := ⟨ascii⟩

variable {alphabet} {fresh : Bool} {front back text name other : List Char}

theorem toNat_lt_of_isKeyChar {char : Char} (hkey : isKeyChar char = true) : char.toNat < 128 := by
  simp only [isKeyChar, Text.isAsciiUpper, Text.isAsciiLower, Text.isAsciiDigit, Bool.or_eq_true,
    Bool.and_eq_true, decide_eq_true_eq, beq_iff_eq] at hkey
  rcases hkey with (((⟨-, hle⟩ | ⟨-, hle⟩) | ⟨-, hle⟩) | rfl) | rfl
  · exact Nat.lt_of_le_of_lt hle (by decide)
  · exact Nat.lt_of_le_of_lt hle (by decide)
  · exact Nat.lt_of_le_of_lt hle (by decide)
  · decide
  · decide

theorem allows_of_isKeyChar {char : Char} (hkey : isKeyChar char = true)
    (hfirst : fresh = true → Text.isAsciiDigit char = false) :
    alphabet.allows fresh char = true := by
  have hascii := toNat_lt_of_isKeyChar hkey
  unfold allows
  split
  next hfresh => rw [alphabet.isStart_ascii char hascii, hkey, hfirst hfresh]; rfl
  next => rw [alphabet.isPart_ascii char hascii, hkey]

/-! ## Texts behind one another -/

theorem Spells.append (hfront : alphabet.Spells fresh front name)
    (hback : alphabet.Spells (fresh && front.isEmpty) back other) :
    alphabet.Spells fresh (front ++ back) (name ++ other) := by
  induction hfront with
  | nil => simpa using hback
  | @cons fresh spelling rest name char hpiece hchar hrest ih =>
      have hempty : (fresh && (spelling ++ rest).isEmpty) = false := by
        cases hpiece <;> simp
      rw [hempty] at hback
      rw [List.append_assoc, List.cons_append]
      exact .cons hpiece hchar (ih (by simpa using hback))

/-- Characters of keys stand for themselves. -/
theorem spells_of_forall (htext : ∀ char ∈ text, isKeyChar char = true)
    (hfirst : fresh = true → ∀ char ∈ text.head?, Text.isAsciiDigit char = false) :
    alphabet.Spells fresh text text := by
  induction text generalizing fresh with
  | nil => exact .nil
  | cons char text ih =>
      rw [List.forall_mem_cons] at htext
      have hback : char ≠ '\\' := by
        rintro rfl
        exact absurd htext.1 (by decide)
      have hchar : alphabet.allows fresh char = true :=
        allows_of_isKeyChar htext.1 fun hfresh => hfirst hfresh char rfl
      exact .cons (.raw hback) hchar (ih htext.2 nofun)

theorem spells_append_entity (htext : alphabet.Spells fresh text name)
    (heq : text = front ++ "Entity".toList) :
    (∃ name, alphabet.Spells fresh front name) ∨ alphabet.IsOpen fresh front := by
  induction htext generalizing front with
  | nil => simp at heq
  | @cons fresh spelling rest name char hpiece hchar hrest ih =>
      rcases List.append_eq_append_iff.mp heq with ⟨others, rfl, hothers⟩ | ⟨taken, rfl, htaken⟩
      · rcases ih hothers with ⟨name, hname⟩ | hopen
        · exact Or.inl ⟨_, .cons hpiece hchar hname⟩
        · exact Or.inr (.cons hpiece hchar hopen)
      · rcases hpiece.cases_append ⟨rest, htaken.symm⟩ with rfl | rfl | ⟨digits, rfl, rfl, hdigits⟩
        · rw [List.append_nil] at hpiece
          have hfront : alphabet.Spells fresh (front ++ []) [char] := .cons hpiece hchar .nil
          exact Or.inl ⟨_, by simpa using hfront⟩
        · exact Or.inl ⟨[], .nil⟩
        · exact Or.inr (.last hdigits hchar)

/-- An identifier goes on with letters behind it, as does one that takes the first of them. -/
theorem IsOpen.exists_spells (hopen : alphabet.IsOpen fresh front) :
    ∃ name, alphabet.Spells fresh (front ++ "Entity".toList) (name ++ "ntity".toList) := by
  induction hopen with
  | @last fresh digits char hdigits hchar =>
      have hrest : alphabet.Spells false "ntity".toList "ntity".toList :=
        spells_of_forall (List.all_eq_true.mp rfl) nofun
      have hall : alphabet.Spells fresh (('\\' :: 'u' :: (digits ++ ['E'])) ++ "ntity".toList)
          (char :: "ntity".toList) := .cons (.unit hdigits) hchar hrest
      exact ⟨[char], by simpa using hall⟩
  | cons hpiece hchar _ ih =>
      obtain ⟨name, hname⟩ := ih
      rw [List.append_assoc]
      exact ⟨_ :: name, .cons hpiece hchar hname⟩

theorem Spells.append_entity (hfront : alphabet.Spells fresh front name) :
    alphabet.Spells fresh (front ++ "Entity".toList) ((name ++ ['E']) ++ "ntity".toList) := by
  have hhead : "Entity".toList.head? = some 'E' := rfl
  have hback : alphabet.Spells (fresh && front.isEmpty) "Entity".toList "Entity".toList := by
    refine spells_of_forall (List.all_eq_true.mp rfl) fun _ char hchar => ?_
    obtain rfl := Option.some.inj (hhead.symm.trans hchar)
    rfl
  simpa using hfront.append hback

/-- Whether a text is an identifier with `Entity` behind it. -/
def StartsEntity (alphabet : Alphabet) (front : List Char) : Prop :=
  (∃ name, alphabet.Spells true front name) ∨ alphabet.IsOpen true front

theorem isIdentifier_append_iff :
    alphabet.IsIdentifier (front ++ "Entity".toList) ↔ alphabet.StartsEntity front := by
  constructor
  · rintro ⟨name, hname, -⟩
    exact spells_append_entity hname rfl
  · intro hstarts
    obtain ⟨name, hname⟩ :
        ∃ name, alphabet.Spells true (front ++ "Entity".toList) (name ++ "ntity".toList) := by
      rcases hstarts with ⟨name, hname⟩ | hopen
      · exact ⟨_, hname.append_entity⟩
      · exact hopen.exists_spells
    refine ⟨_, hname, by simp, fun hreserved => ?_⟩
    have hfree : ∀ word ∈ reservedWords, ¬ "ntity".toList <:+ word := by decide
    exact hfree _ hreserved (List.suffix_append _ _)

/-- A number behind an identifier belongs to it. -/
theorem Spells.append_digits {digits : List Char} (hfront : alphabet.Spells fresh front name)
    (hne : front ≠ []) (hdigits : ∀ digit ∈ digits, Text.isAsciiDigit digit = true) :
    alphabet.Spells fresh (front ++ digits) (name ++ digits) := by
  have hempty : (fresh && front.isEmpty) = false := by simp [hne]
  refine hfront.append (hempty ▸ spells_of_forall (fun digit hmem => ?_) nofun)
  simp [isKeyChar, hdigits digit hmem]

/-- No identifier starts with a digit. -/
theorem not_isIdentifier_of_digit {first : Char} {rest : List Char}
    (hfirst : Text.isAsciiDigit first = true) : ¬ alphabet.IsIdentifier (first :: rest) := by
  rintro ⟨name, hname, -⟩
  generalize htext : first :: rest = text at hname
  cases hname with
  | nil => cases htext
  | cons hpiece hchar _ =>
      cases hpiece with
      | raw =>
          obtain ⟨rfl, -⟩ := List.cons.inj htext
          have hascii : first.toNat < 128 := toNat_lt_of_isKeyChar (by simp [isKeyChar, hfirst])
          rw [allows, if_pos rfl, alphabet.isStart_ascii _ hascii, hfirst] at hchar
          simp at hchar
      | unit =>
          obtain ⟨rfl, -⟩ := List.cons.inj htext
          exact absurd hfirst (by decide)
      | braced =>
          obtain ⟨rfl, -⟩ := List.cons.inj htext
          exact absurd hfirst (by decide)

end Alphabet

end EntityModel.Schema
