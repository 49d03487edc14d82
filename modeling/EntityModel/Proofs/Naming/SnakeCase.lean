import EntityModel.Naming
import EntityModel.Proofs.Text.Case
import Mathlib.Data.List.Chain

/-!
# Names in snake case

Where a word starts in a name is decided at its capital, by the characters beside it. That is
enough to tell words apart that are run together, acronyms among them, and whatever stands in a
name, its letters come out in lower case and nothing but underscores is put between them
(`snakeCase_tellsWordsApart`).
-/

namespace EntityModel.Naming

open Text

/-! ## Words -/

/-- Whether characters continue a word: lower-case letters and digits. -/
def IsTail (chars : List Char) : Prop :=
  ∀ char ∈ chars, isLowercase char = true ∨ isAsciiDigit char = true

/-- A word in lower case, such as `author` and `line2`. -/
def IsLowered (word : List Char) : Prop :=
  ∃ first rest, word = first :: rest ∧ isLowercase first = true ∧ IsTail rest

/-- A word that a capital starts, such as `Author` and `V2`. -/
def IsCapitalised (word : List Char) : Prop :=
  ∃ first rest, word = first :: rest ∧ isUppercase first = true ∧ rest ≠ [] ∧ IsTail rest

/-- A word of capitals, such as `ID` and `HTTP`. -/
def IsAcronym (word : List Char) : Prop :=
  2 ≤ word.length ∧ ∀ char ∈ word, isUppercase char = true

/-- Whether a word may stand behind another one. No two acronyms stand side by side, and what
follows an acronym has a letter behind its capital. -/
def Follows (previous next : List Char) : Prop :=
  IsCapitalised next ∧ (IsAcronym previous → ∃ second ∈ next[1]?, isLowercase second = true) ∨
    IsAcronym next ∧ ¬ IsAcronym previous

/-- Whether words can be run together: the first one may be in lower case, and each of the others
follows the one in front of it. -/
def AreWords (words : List (List Char)) : Prop :=
  (∀ first ∈ words.head?, IsLowered first ∨ IsCapitalised first ∨ IsAcronym first) ∧
    words.IsChain Follows

variable {char last : Char} {previous next : Option Char} {text rest word after : List Char}
  {words : List (List Char)}

/-! ## One character -/

theorem startsWord_of_tail (hlast : isLowercase last = true ∨ isAsciiDigit last = true) :
    startsWord (some last) next = true := by
  rw [startsWord, if_pos (by simpa using hlast)]

theorem startsWord_of_isUppercase (hlast : isUppercase last = true) :
    startsWord (some last) next = next.any isLowercase := by
  have hlower := isLowercase_of_isUppercase hlast
  have hdigit : isAsciiDigit last = false := by
    by_contra hdigit
    rw [Bool.not_eq_false] at hdigit
    rw [(caseless_of_isAsciiDigit hdigit).1] at hlast
    cases hlast
  simp [startsWord, hlower, hdigit, hlast]

/-- A character that continues a word stays as it is. -/
theorem snakeFrom_tail (hchar : isLowercase char = true ∨ isAsciiDigit char = true) :
    snakeFrom false previous (char :: text) =
      toLowercase char ++ snakeFrom false (some char) text := by
  have hcase : isUppercase char = false ∧ toLowercase char = [char] := by
    rcases hchar with hlower | hdigit
    · exact ⟨isUppercase_of_isLowercase hlower, toLowercase_of_isLowercase hlower⟩
    · exact caseless_of_isAsciiDigit hdigit
  have hplain : char ≠ '-' ∧ char ≠ ' ' ∧ char ≠ '_' := by
    refine ⟨?_, ?_, ?_⟩
    all_goals
      rintro rfl
      revert hchar
      decide
  have hended : (char == '_') = false := beq_false_of_ne hplain.2.2
  simp [snakeFrom, snakeStep, hcase, hplain.1, hplain.2.1, hended]

/-- A capital is put in lower case, behind an underscore if it starts a word. -/
theorem snakeFrom_upper (hupper : isUppercase char = true) :
    snakeFrom false previous (char :: text) =
      (if startsWord previous text.head? then ['_'] else []) ++
        (toLowercase char ++ snakeFrom false (some char) text) := by
  have hplain : char ≠ '-' ∧ char ≠ ' ' := by
    constructor
    all_goals
      rintro rfl
      revert hupper
      decide
  obtain ⟨final, hfinal, hne⟩ := exists_getLast?_toLowercase hupper
  have hended : (final == '_') = false := beq_false_of_ne hne
  simp [snakeFrom, snakeStep, hplain, hupper, hfinal, hended]

/-! ## One word -/

/-- What continues a word is only put in lower case. -/
theorem snakeFrom_append_tail (htail : IsTail rest) :
    snakeFrom false (some last) (rest ++ after) =
      rest.flatMap toLowercase ++ snakeFrom false (some (rest.getLastD last)) after := by
  induction rest generalizing last with
  | nil => rfl
  | cons char rest ih =>
      obtain ⟨hchar, hrest⟩ := List.forall_mem_cons.mp htail
      rw [List.cons_append, snakeFrom_tail hchar, ih hrest, List.flatMap_cons, List.append_assoc,
        List.getLastD_cons]

/-- Behind a capital the capitals that follow start no word, unless a lower-case letter stands
behind the last of them. -/
theorem snakeFrom_append_capitals (hlast : isUppercase last = true)
    (hrest : ∀ char ∈ rest, isUppercase char = true)
    (hafter : after.head?.any isLowercase = false) :
    snakeFrom false (some last) (rest ++ after) =
      rest.flatMap toLowercase ++ snakeFrom false (some (rest.getLastD last)) after := by
  induction rest generalizing last with
  | nil => rfl
  | cons char rest ih =>
      obtain ⟨hchar, hrest⟩ := List.forall_mem_cons.mp hrest
      have hnext : (rest ++ after).head?.any isLowercase = false := by
        cases rest with
        | nil => exact hafter
        | cons next rest => exact isLowercase_of_isUppercase (hrest next List.mem_cons_self)
      rw [List.cons_append, snakeFrom_upper hchar, startsWord_of_isUppercase hlast, hnext,
        ih hchar hrest, List.flatMap_cons, List.append_assoc, List.getLastD_cons]
      rfl

/-- Whether a character may be the last one of a word: a capital only of an acronym. -/
def EndsIn (word : List Char) (last : Char) : Prop :=
  (isLowercase last = true ∨ isAsciiDigit last = true) ∨ IsAcronym word ∧ isUppercase last = true

theorem snakeFrom_append_capital {first : Char} {others : List Char}
    (hfirst : isUppercase first = true) (hne : rest ≠ [])
    (hrest : snakeFrom false (some first) (rest ++ after) = rest.flatMap toLowercase ++ others) :
    snakeFrom false previous (first :: rest ++ after) =
      (if (first :: rest).head?.any isUppercase && startsWord previous (first :: rest)[1]?
        then ['_'] else []) ++ ((first :: rest).flatMap toLowercase ++ others) := by
  obtain ⟨second, rest, rfl⟩ := List.exists_cons_of_ne_nil hne
  have hhead : (first :: second :: rest).head?.any isUppercase = true := hfirst
  rw [List.cons_append, snakeFrom_upper hfirst, hrest, hhead, Bool.true_and,
    List.flatMap_cons (x := first), List.append_assoc]
  rfl

/-- A word is put in lower case as a whole, behind an underscore if its capital starts a word. -/
theorem snakeFrom_append_word (hword : IsLowered word ∨ IsCapitalised word ∨ IsAcronym word)
    (hafter : after.head?.any isLowercase = false) (previous : Option Char) :
    ∃ last, EndsIn word last ∧ snakeFrom false previous (word ++ after) =
      (if word.head?.any isUppercase && startsWord previous word[1]? then ['_'] else []) ++
        (word.flatMap toLowercase ++ snakeFrom false (some last) after) := by
  rcases hword with ⟨first, rest, rfl, hfirst, htail⟩ | ⟨first, rest, rfl, hfirst, hne, htail⟩ |
    ⟨hlength, hupper⟩
  · refine ⟨rest.getLastD first, Or.inl ?_, ?_⟩
    · rcases List.mem_cons.mp List.getLastD_mem_cons with heq | hmem
      · exact Or.inl (heq ▸ hfirst)
      · exact htail _ hmem
    · have hhead := isUppercase_of_isLowercase hfirst
      rw [List.cons_append, snakeFrom_tail (Or.inl hfirst), snakeFrom_append_tail htail]
      simp [hhead]
  · obtain ⟨second, rest, rfl⟩ := List.exists_cons_of_ne_nil hne
    refine ⟨(second :: rest).getLastD first, Or.inl (htail _ ?_),
      snakeFrom_append_capital hfirst hne (snakeFrom_append_tail htail)⟩
    rw [List.getLastD_cons]
    exact List.getLastD_mem_cons
  · -- Only the first capital of an acronym may start a word.
    match word, hlength with
    | first :: second :: rest, hlength =>
      obtain ⟨hfirst, hrest⟩ := List.forall_mem_cons.mp hupper
      refine ⟨(second :: rest).getLastD first, Or.inr ⟨⟨hlength, hupper⟩, hrest _ ?_⟩,
        snakeFrom_append_capital hfirst (List.cons_ne_nil _ _)
          (snakeFrom_append_capitals hfirst hrest hafter)⟩
      rw [List.getLastD_cons]
      exact List.getLastD_mem_cons

/-! ## Words in a row -/

theorem Follows.isWord {word next : List Char} (hfollows : Follows word next) :
    IsCapitalised next ∨ IsAcronym next := hfollows.imp And.left And.left

/-- A word that follows another one starts with a capital. -/
theorem Follows.head?_isUppercase {word next : List Char} (hfollows : Follows word next) :
    ∃ first, next.head? = some first ∧ isUppercase first = true := by
  rcases hfollows.isWord with ⟨first, rest, rfl, hfirst, -⟩ | ⟨hlength, hupper⟩
  · exact ⟨first, rfl, hfirst⟩
  · match next, hlength with
    | first :: _ :: _, _ => exact ⟨first, rfl, hupper first List.mem_cons_self⟩

/-- The capital of a word that follows another one starts a word. -/
theorem Follows.startsWord {word next : List Char} (hfollows : Follows word next)
    (hlast : EndsIn word last) : startsWord (some last) next[1]? = true := by
  rcases hlast with htail | ⟨hacronym, hupper⟩
  · exact startsWord_of_tail htail
  · rcases hfollows with ⟨-, hsecond⟩ | ⟨-, hother⟩
    · obtain ⟨second, hnext, hlower⟩ := hsecond hacronym
      rw [startsWord_of_isUppercase hupper, Option.mem_def.mp hnext]
      exact hlower
    · exact absurd hacronym hother

theorem head?_flatten_of_isChain (hchain : (word :: words).IsChain Follows) :
    words.flatten.head?.any isLowercase = false := by
  cases words with
  | nil => rfl
  | cons next words =>
      obtain ⟨first, hhead, hupper⟩ := (List.isChain_cons_cons.mp hchain).1.head?_isUppercase
      obtain ⟨rest, rfl⟩ := List.head?_eq_some_iff.mp hhead
      exact isLowercase_of_isUppercase hupper

/-- The words behind a word are put in lower case, an underscore in front of each. -/
theorem snakeFrom_flatten (hchain : (word :: words).IsChain Follows) (hlast : EndsIn word last) :
    snakeFrom false (some last) words.flatten =
      words.flatMap fun word => '_' :: word.flatMap toLowercase := by
  induction words generalizing word last with
  | nil => rfl
  | cons next words ih =>
      -- How the word before ends decides that this one starts with an underscore.
      obtain ⟨hfollows, hrest⟩ := List.isChain_cons_cons.mp hchain
      obtain ⟨final, hfinal, hsnake⟩ := snakeFrom_append_word (Or.inr hfollows.isWord)
        (head?_flatten_of_isChain hrest) (some last)
      obtain ⟨first, hhead, hupper⟩ := hfollows.head?_isUppercase
      have hfirst : next.head?.any isUppercase = true := by rw [hhead]; exact hupper
      rw [List.flatten_cons, hsnake, hfirst, hfollows.startsWord hlast, ih hrest hfinal,
        List.flatMap_cons, ← List.append_assoc]
      rfl

theorem intercalate_cons (separator first : List Char) (others : List (List Char)) :
    separator.intercalate (first :: others) = first ++ others.flatMap (separator ++ ·) := by
  induction others generalizing first with
  | nil => simp [List.intercalate]
  | cons second others ih =>
      rw [List.intercalate_cons_cons, ih, List.flatMap_cons, List.append_assoc, List.append_assoc]

/-- Words run together are told apart again. -/
theorem snakeFrom_words (hwords : AreWords words) : snakeFrom false none words.flatten =
    ['_'].intercalate (words.map (·.flatMap toLowercase)) := by
  obtain ⟨hfirst, hchain⟩ := hwords
  cases words with
  | nil => rfl
  | cons word words =>
      obtain ⟨last, hlast, hsnake⟩ := snakeFrom_append_word (hfirst word rfl)
        (head?_flatten_of_isChain hchain) none
      rw [List.flatten_cons, hsnake, snakeFrom_flatten hchain hlast, List.map_cons,
        intercalate_cons, List.flatMap_map]
      simp [Naming.startsWord]

/-! ## Any ASCII name -/

/-- Whether a character may stand in a name in snake case. -/
def IsSnakeChar (char : Char) : Prop := isUppercase char = false ∧ char ≠ ' ' ∧ char ≠ '-'

/-- What an ASCII character contributes to a name in snake case, and whether the name ends in an
underscore then, by whether it does before. -/
inductive Contributes (joined : Bool) (char : Char) : (written : List Char) → (ended : Bool) → Prop
  | separator (hchar : char = '-' ∨ char = ' ') :
      Contributes joined char (if joined then [] else ['_']) true
  | capital {boundary : List Char} (hupper : isUppercase char = true)
      (hlower : isLowercase char.toLower = true)
      (hboundary : boundary = [] ∨ boundary = ['_'] ∧ joined = false) :
      Contributes joined char (boundary ++ [char.toLower]) false
  | other (hchar : IsSnakeChar char) (hlower : char.toLower = char) :
      Contributes joined char [char] (char == '_')

theorem snakeFrom_of_isSnakeChar {joined : Bool} (hchar : IsSnakeChar char) :
    snakeFrom joined previous (char :: text) =
      char :: snakeFrom (char == '_') (some char) text := by
  simp [snakeFrom, snakeStep, hchar.1, hchar.2.1, hchar.2.2]

theorem exists_contributes (hascii : char.toNat < 128) (joined : Bool) (previous : Option Char)
    (text : List Char) : ∃ written ended, Contributes joined char written ended ∧
      snakeFrom joined previous (char :: text) = written ++ snakeFrom ended (some char) text := by
  by_cases hseparator : char = '-' ∨ char = ' '
  · refine ⟨_, _, .separator hseparator, ?_⟩
    cases joined <;> simp [snakeFrom, snakeStep, hseparator]
  by_cases hupper : isUppercase char = true
  · have hlower := toLower_of_isUppercase hascii hupper
    have hended : (char.toLower == '_') = false := by
      rw [beq_eq_false_iff_ne]
      intro heq
      rw [heq] at hlower
      cases hlower
    refine ⟨(if startsWord previous text.head? && !joined then ['_'] else []) ++ [char.toLower],
      false, .capital hupper hlower ?_, ?_⟩
    · cases startsWord previous text.head? <;> cases joined <;> simp
    · simp [snakeFrom, snakeStep, hseparator, hupper, (toLowercase_of_ascii hascii).1, hended]
  · rw [Bool.not_eq_true] at hupper
    rw [not_or] at hseparator
    have hchar : IsSnakeChar char := ⟨hupper, hseparator.2, hseparator.1⟩
    exact ⟨_, _, .other hchar ((toLowercase_of_ascii hascii).2 hupper),
      snakeFrom_of_isSnakeChar hchar⟩

/-- Whether no two underscores stand side by side in a text, and none at its start if one stands in
front of it. -/
def StandApart (joined : Bool) (text : List Char) : Prop :=
  text.IsChain (fun first second => first ≠ '_' ∨ second ≠ '_') ∧
    (joined = true → text.head? ≠ some '_')

variable {joined ended : Bool} {written others : List Char}

theorem StandApart.cons_of_ne (hchar : char ≠ '_') (hothers : StandApart false others) :
    StandApart joined (char :: others) :=
  ⟨List.isChain_cons.mpr ⟨fun _ _ => Or.inl hchar, hothers.1⟩,
    fun _ hhead => hchar (Option.some.inj hhead)⟩

theorem StandApart.cons_underscore (hothers : StandApart true others) :
    StandApart false ('_' :: others) := by
  refine ⟨List.isChain_cons.mpr ⟨fun next hnext => Or.inr ?_, hothers.1⟩, nofun⟩
  rintro rfl
  exact hothers.2 rfl hnext

theorem ne_of_isLowercase (hlower : isLowercase char = true) :
    char ≠ '_' ∧ char ≠ '-' ∧ char ≠ ' ' := by
  refine ⟨?_, ?_, ?_⟩
  all_goals
    rintro rfl
    cases hlower

namespace Contributes

theorem isSnakeChar (hstep : Contributes joined char written ended) :
    ∀ char ∈ written, IsSnakeChar char := by
  have hunderscore : IsSnakeChar '_' := ⟨rfl, by decide, by decide⟩
  cases hstep with
  | separator _ => cases joined <;> simp [hunderscore]
  | capital _ hlower hboundary =>
      have hplain := ne_of_isLowercase hlower
      have hchar : IsSnakeChar char.toLower :=
        ⟨isUppercase_of_isLowercase hlower, hplain.2.2, hplain.2.1⟩
      rcases hboundary with rfl | ⟨rfl, -⟩ <;> simp [hunderscore, hchar]
  | other hchar _ => exact List.forall_mem_singleton.mpr hchar

/-- But for underscores and what they stand for, a character contributes its lower-case form. -/
theorem filter_eq (hstep : Contributes joined char written ended) :
    written.filter (· ≠ '_') =
      [char.toLower].filter fun char => char ≠ '_' ∧ char ≠ '-' ∧ char ≠ ' ' := by
  cases hstep with
  | separator hchar => rcases hchar with rfl | rfl <;> cases joined <;> rfl
  | capital _ hlower hboundary =>
      have hplain := ne_of_isLowercase hlower
      rcases hboundary with rfl | ⟨rfl, -⟩ <;> simp [hplain]
  | other hchar hlower =>
      rw [hlower]
      refine List.filter_congr fun other hother => ?_
      rw [List.mem_singleton.mp hother]
      simp [hchar.2.1, hchar.2.2]

/-- A character that is no underscore keeps underscores apart. -/
theorem standApart (hstep : Contributes joined char written ended) (hchar : char ≠ '_')
    (hothers : StandApart ended others) : StandApart joined (written ++ others) := by
  cases hstep with
  | separator _ =>
      cases joined with
      | true => exact hothers
      | false => exact hothers.cons_underscore
  | capital _ hlower hboundary =>
      have hlast : StandApart joined (char.toLower :: others) :=
        hothers.cons_of_ne (ne_of_isLowercase hlower).1
      rcases hboundary with rfl | ⟨rfl, rfl⟩
      · exact hlast
      · exact (hothers.cons_of_ne (ne_of_isLowercase hlower).1).cons_underscore
  | other _ _ =>
      rw [beq_false_of_ne hchar] at hothers
      exact hothers.cons_of_ne hchar

end Contributes

theorem isSnakeChar_of_mem_snakeFrom (hascii : ∀ char ∈ text, char.toNat < 128) :
    ∀ char ∈ snakeFrom joined previous text, IsSnakeChar char := by
  induction text generalizing joined previous with
  | nil => exact nofun
  | cons char text ih =>
      obtain ⟨hchar, htext⟩ := List.forall_mem_cons.mp hascii
      obtain ⟨written, ended, hstep, heq⟩ := exists_contributes hchar joined previous text
      rw [heq]
      exact List.forall_mem_append.mpr ⟨hstep.isSnakeChar, ih htext⟩

theorem filter_snakeFrom (hascii : ∀ char ∈ text, char.toNat < 128) :
    (snakeFrom joined previous text).filter (· ≠ '_') =
      (text.map Char.toLower).filter fun char => char ≠ '_' ∧ char ≠ '-' ∧ char ≠ ' ' := by
  induction text generalizing joined previous with
  | nil => rfl
  | cons char text ih =>
      obtain ⟨hchar, htext⟩ := List.forall_mem_cons.mp hascii
      obtain ⟨written, ended, hstep, heq⟩ := exists_contributes hchar joined previous text
      rw [heq, List.filter_append, hstep.filter_eq, ih htext, ← List.filter_append]
      rfl

theorem standApart_snakeFrom (hascii : ∀ char ∈ text, char.toNat < 128) (hfree : '_' ∉ text) :
    StandApart joined (snakeFrom joined previous text) := by
  induction text generalizing joined previous with
  | nil => exact ⟨List.isChain_nil, nofun⟩
  | cons char text ih =>
      obtain ⟨hchar, htext⟩ := List.forall_mem_cons.mp hascii
      rw [List.mem_cons, not_or] at hfree
      obtain ⟨written, ended, hstep, heq⟩ := exists_contributes hchar joined previous text
      rw [heq]
      exact hstep.standApart (Ne.symm hfree.1) (ih htext hfree.2)

/-- A text in snake case stays as it is. -/
theorem snakeFrom_eq_self (htext : ∀ char ∈ text, IsSnakeChar char) :
    snakeFrom joined previous text = text := by
  induction text generalizing joined previous with
  | nil => rfl
  | cons char text ih =>
      obtain ⟨hchar, hrest⟩ := List.forall_mem_cons.mp htext
      rw [snakeFrom_of_isSnakeChar hchar, ih hrest]

/-! ## Names -/

/-- What a name in snake case has of the name that it is made from: its letters, in lower case and
behind single underscores. To put it in snake case once more changes nothing. -/
structure IsSnakeCaseOf (name snake : String) : Prop where
  isSnakeChar : ∀ char ∈ snake.toList, IsSnakeChar char
  letters_eq : snake.toList.filter (· ≠ '_') =
    name.toLower.toList.filter fun char => char ≠ '_' ∧ char ≠ '-' ∧ char ≠ ' '
  snakeCase_eq : snakeCase snake = snake
  single : '_' ∉ name.toList → ¬ ['_', '_'] <:+: snake.toList

theorem isSnakeCaseOf_snakeCase {name : String} (hascii : ∀ char ∈ name.toList, char.toNat < 128) :
    IsSnakeCaseOf name (snakeCase name) := by
  have hchars : ∀ char ∈ (snakeCase name).toList, IsSnakeChar char := by
    rw [snakeCase, String.toList_ofList]
    exact isSnakeChar_of_mem_snakeFrom hascii
  refine ⟨hchars, ?_, ?_, fun hfree hdouble => ?_⟩
  · have hlower : name.toLower.toList = name.toList.map Char.toLower := String.toList_map
    rw [snakeCase, String.toList_ofList, filter_snakeFrom hascii, hlower]
  · rw [snakeCase, snakeFrom_eq_self hchars, String.ofList_toList]
  · rw [snakeCase, String.toList_ofList] at hdouble
    have hapart : StandApart false (snakeFrom false none name.toList) :=
      standApart_snakeFrom hascii hfree
    obtain ⟨front, back, hsplit⟩ := hdouble
    rw [← hsplit] at hapart
    have hboth := (List.isChain_cons_cons.mp hapart.1.left_of_append.right_of_append).1
    simp at hboth

/-- A name in snake case has the letters of its name in lower case, behind single underscores. Words
that are run together, with a capital in front of each or as acronyms, are told apart again. -/
theorem snakeCase_tellsWordsApart :
    (∀ name : String, (∀ char ∈ name.toList, char.toNat < 128) →
      IsSnakeCaseOf name (snakeCase name)) ∧
    ∀ words : List String, AreWords (words.map String.toList) →
      snakeCase (String.join words) = "_".intercalate (words.map lowercase) ∧
        ((∀ word ∈ words, ∀ char ∈ word.toList, char.toNat < 128) →
          words.map lowercase = words.map String.toLower) := by
  refine ⟨fun name hascii => isSnakeCaseOf_snakeCase hascii, fun words hwords => ⟨?_, ?_⟩⟩
  · have hflatten : (String.join words).toList = (words.map String.toList).flatten := by
      rw [String.toList_join, List.flatMap_def]
    rw [← String.toList_inj, snakeCase, String.toList_ofList, hflatten, snakeFrom_words hwords,
      String.toList_intercalate, List.map_map, List.map_map]
    simp [lowercase, Function.comp_def]
  · exact fun hascii => List.map_congr_left fun word hword => lowercase_of_ascii (hascii word hword)

/-- An acronym between words, and separators beside capitals. -/
theorem snakeCase_tellsWordsApart_acronym :
    (∀ char ∈ "HTTP-Status codeID".toList, char.toNat < 128) ∧
      IsSnakeCaseOf "HTTP-Status codeID" "http_status_code_id" ∧
      AreWords (["line2", "URL", "Total", "ID"].map String.toList) ∧
      snakeCase "line2URLTotalID" = "line2_url_total_id" := by
  have hascii : ∀ char ∈ "HTTP-Status codeID".toList, char.toNat < 128 := by simp
  have hwords : AreWords (["line2", "URL", "Total", "ID"].map String.toList) := by
    have htail : ∀ rest : List Char,
        rest.all (fun char => isLowercase char || isAsciiDigit char) = true → IsTail rest := by
      intro rest hall
      simpa [IsTail] using hall
    have hlowered : IsLowered "line2".toList := ⟨'l', _, rfl, rfl, htail _ rfl⟩
    have hurl : IsAcronym "URL".toList := ⟨by decide, List.all_eq_true.mp rfl⟩
    have htotal : IsCapitalised "Total".toList := ⟨'T', _, rfl, rfl, by decide, htail _ rfl⟩
    have hid : IsAcronym "ID".toList := ⟨by decide, List.all_eq_true.mp rfl⟩
    have hfirst : ¬ IsAcronym "line2".toList := fun hacronym =>
      absurd (hacronym.2 'l' (by simp)) (by decide)
    have hthird : ¬ IsAcronym "Total".toList := fun hacronym =>
      absurd (hacronym.2 'o' (by simp)) (by decide)
    refine ⟨?_, ?_⟩
    · rintro _ ⟨⟩
      exact Or.inl hlowered
    · simp only [List.map_cons, List.map_nil, List.isChain_cons_cons, List.isChain_singleton]
      exact ⟨Or.inr ⟨hurl, hfirst⟩, Or.inl ⟨htotal, fun _ => ⟨'o', rfl, rfl⟩⟩,
        Or.inr ⟨hid, hthird⟩, trivial⟩
  have hsnake := snakeCase_tellsWordsApart.1 _ hascii
  have hjoined := (snakeCase_tellsWordsApart.2 ["line2", "URL", "Total", "ID"] hwords).1
  have hname : snakeCase "HTTP-Status codeID" = "http_status_code_id" := by decide +kernel
  have hresult : "_".intercalate (["line2", "URL", "Total", "ID"].map lowercase) =
      "line2_url_total_id" := by decide +kernel
  exact ⟨hascii, hname ▸ hsnake, hwords, hjoined.trans hresult⟩

end EntityModel.Naming
