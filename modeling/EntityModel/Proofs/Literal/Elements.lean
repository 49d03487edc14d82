import EntityModel.Syntax.Literal

/-!
# The elements of a string literal

What stands in front of a place does not count for what is read from that place on
(`unescapeFrom?_append`). So the inside of a string literal is read element by element, each from
the text that the ones before it leave (`unescape_of_element?`).
-/

namespace EntityModel.Literal

theorem from?_append (front text : List Char) (place : Nat) :
    from? (front ++ text) (front.length + place) = from? text place := by
  simp only [from?, List.length_append, Nat.add_le_add_iff_left, List.drop_length_add_append]

theorem getElem?_length_add (front text : List Char) (place : Nat) :
    (front ++ text)[front.length + place]? = text[place]? := by
  rw [List.getElem?_append_right (Nat.le_add_right _ _), Nat.add_sub_cancel_left]

theorem codeEscape?_append (front text : List Char) (start : Nat) (letter : Char) :
    codeEscape? (front ++ text) (front.length + start) letter =
      (codeEscape? text start letter).map (Option.map (Prod.map id (front.length + ·))) := by
  unfold codeEscape?
  rw [List.drop_length_add_append, getElem?_length_add, Nat.add_assoc, from?_append]
  split
  · cases byteEscape? (text.drop start) <;> simp [Nat.add_assoc]
  split
  · cases from? text (start + 1) with
    | none => rfl
    | some digits => cases hread : bracedEscape? digits <;> simp [hread, Nat.add_assoc]
  · cases unitEscape? (text.drop start) <;> simp [Nat.add_assoc]

theorem escape?_append (front text : List Char) (start : Nat) (letter : Char) :
    escape? (front ++ text) (front.length + start) letter =
      (escape? text start letter).map (Prod.map id (front.length + ·)) := by
  unfold escape?
  rw [codeEscape?_append]
  split
  · cases codeEscape? text start letter with
    | none => rfl
    | some read => cases read <;> rfl
  · split <;> rfl

theorem element?_append (front text : List Char) (place : Nat) :
    element? (front ++ text) (front.length + place) =
      (element? text place).map (Prod.map id (front.length + ·)) := by
  unfold element?
  rw [Nat.add_assoc, Nat.add_assoc, getElem?_length_add, getElem?_length_add]
  split
  · rfl
  · rfl
  · exact escape?_append front text _ _
  · simp

theorem unescapeFrom?_of_length_le {text : List Char} {place : Nat} (hplace : text.length ≤ place) :
    unescapeFrom? text place = some [] := by
  rw [unescapeFrom?, if_neg (Nat.not_lt.mpr hplace)]

/-- What stands in front of a place does not count for what is read from there on. -/
theorem unescapeFrom?_append (front text : List Char) (place : Nat) :
    unescapeFrom? (front ++ text) (front.length + place) = unescapeFrom? text place := by
  induction place using unescapeFrom?.induct text with
  | case1 place hplace hnone =>
      obtain ⟨written, next, helement⟩ := exists_element? hplace
      rw [helement] at hnone
      cases hnone
  | case2 place hplace written next helement _ ih =>
      have hplace' : front.length + place < (front ++ text).length := by
        rw [List.length_append]
        omega
      have helement' : element? (front ++ text) (front.length + place) =
          some (written, front.length + next) := by
        rw [element?_append, helement]
        rfl
      rw [unescapeFrom?_of_element? hplace' helement', unescapeFrom?_of_element? hplace helement,
        ih]
  | case3 place hplace =>
      rw [unescapeFrom?_of_length_le (Nat.not_lt.mp hplace), unescapeFrom?_of_length_le]
      rw [List.length_append]
      omega

theorem unescapeFrom?_zero (text : List Char) : unescapeFrom? text 0 = some (unescape text) :=
  (Option.some_get _).symm

@[simp] theorem unescape_nil : unescape [] = [] := by
  have hnil := unescapeFrom?_zero []
  rw [unescapeFrom?_of_length_le (Nat.zero_le _)] at hnil
  exact (Option.some.inj hnil).symm

/-- Reading from a place on is reading what stands there. -/
theorem unescapeFrom?_eq (text : List Char) (place : Nat) :
    unescapeFrom? text place = some (unescape (text.drop place)) := by
  rcases Nat.le_total place text.length with hle | hle
  · have happend := unescapeFrom?_append (text.take place) (text.drop place) 0
    rwa [List.take_append_drop, List.length_take, Nat.min_eq_left hle, Nat.add_zero,
      unescapeFrom?_zero] at happend
  · rw [unescapeFrom?_of_length_le hle, List.drop_eq_nil_of_le hle, unescape_nil]

/-- The first element of a text is read in front of the others. -/
theorem unescape_of_element? {text written : List Char} {next : Nat} (hne : text ≠ [])
    (helement : element? text 0 = some (written, next)) :
    unescape text = written ++ unescape (text.drop next) := by
  have hread := unescapeFrom?_of_element? (List.length_pos_iff.mpr hne) helement
  rw [unescapeFrom?_zero, unescapeFrom?_eq, Option.map_some] at hread
  exact Option.some.inj hread

/-! ## The kinds of elements -/

theorem unescape_cons_of_ne {char : Char} (hne : char ≠ '\\') (text : List Char) :
    unescape (char :: text) = char :: unescape text := by
  have helement : element? (char :: text) 0 = some ([char], 1) := by
    unfold element?
    split <;> simp_all
  exact unescape_of_element? (List.cons_ne_nil _ _) helement

theorem unescape_append_of_bare {front : List Char} (hfront : ∀ char ∈ front, char ≠ '\\')
    (rest : List Char) : unescape (front ++ rest) = front ++ unescape rest := by
  induction front with
  | nil => rfl
  | cons char front ih =>
      rw [List.forall_mem_cons] at hfront
      rw [List.cons_append, unescape_cons_of_ne hfront.1, ih hfront.2, List.cons_append]

theorem element?_backslash (letter : Char) (text : List Char) :
    element? ('\\' :: letter :: text) 0 =
      (escape? text 0 letter).map (Prod.map id (2 + ·)) :=
  escape?_append ['\\', letter] text 0 letter

theorem unescape_backslash_of_escape? {letter : Char} {text written : List Char} {next : Nat}
    (hescape : escape? text 0 letter = some (written, next)) :
    unescape ('\\' :: letter :: text) = written ++ unescape (text.drop next) := by
  have helement := element?_backslash letter text
  rw [hescape, Option.map_some, Prod.map, id, Nat.add_comm] at helement
  exact unescape_of_element? (List.cons_ne_nil _ _) helement

/-- A backslash before a character that opens no code point and ends no line. -/
theorem unescape_backslash {letter : Char} (hbyte : letter ≠ 'x') (hunit : letter ≠ 'u')
    (hline : letter ≠ '\n') (text : List Char) :
    unescape ('\\' :: letter :: text) = (simpleEscape? letter).getD letter :: unescape text := by
  have hescape : escape? text 0 letter = some ([(simpleEscape? letter).getD letter], 0) := by
    simp [escape?, hbyte, hunit, hline]
  exact unescape_backslash_of_escape? hescape

/-- A backslash at the end of a line. -/
theorem unescape_continued (text : List Char) : unescape ('\\' :: '\n' :: text) = unescape text :=
  unescape_backslash_of_escape? (rfl : escape? text 0 '\n' = some ([], 0))

/-- A backslash before a letter that opens a code point. -/
theorem unescape_of_codeEscape? {letter char : Char} {text : List Char} {next : Nat}
    (hletter : letter = 'x' ∨ letter = 'u')
    (hcode : codeEscape? text 0 letter = some (some (char, next))) :
    unescape ('\\' :: letter :: text) = char :: unescape (text.drop next) := by
  have hescape : escape? text 0 letter = some ([char], next) := by
    rw [escape?, if_pos hletter, hcode, Option.map_some]
  exact unescape_backslash_of_escape? hescape

/-- A malformed code point is kept, and reading goes on behind its letter. -/
theorem unescape_of_malformed {letter : Char} {text : List Char}
    (hletter : letter = 'x' ∨ letter = 'u') (hcode : codeEscape? text 0 letter = some none) :
    unescape ('\\' :: letter :: text) = '\\' :: letter :: unescape text := by
  have hescape : escape? text 0 letter = some (['\\', letter], 0) := by
    rw [escape?, if_pos hletter, hcode, Option.map_some]
  exact unescape_backslash_of_escape? hescape

end EntityModel.Literal
