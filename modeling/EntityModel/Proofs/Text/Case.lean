import EntityModel.Text.Case

/-!
# Laws of letter case

No character is both in upper and in lower case, and a lower-case character is its own lower-case
form (`isUppercase_of_isLowercase`, `toLowercase_of_isLowercase`). Among ASCII characters these are
facts about a few letters. Beyond ASCII they say that the runs of two tables are apart, which is
seen from the code points of a table as the bits of a number.
-/

namespace EntityModel.Text

namespace CaseTable

/-! ## Code points as bits -/

/-- The first multiples of a step as the bits of a number. -/
def stepBits (step : Nat) : Nat → Nat
  | 0 => 0
  | count + 1 => 1 ||| stepBits step count <<< step

/-- The code points of a run as the bits of a number. -/
def Run.bits (run : Run) : Nat :=
  stepBits run.step ((run.last - run.first) / run.step + 1) <<< run.first

/-- The code points of all runs of a table as the bits of a number. -/
def bitsOf (runs : List Run) : Nat := runs.foldr (fun run bits => run.bits ||| bits) 0

theorem testBit_stepBits (step : Nat) {index count : Nat} (hindex : index < count) :
    (stepBits step count).testBit (index * step) = true := by
  induction count generalizing index with
  | zero => cases hindex
  | succ count ih =>
      cases index with
      | zero => simp [stepBits]
      | succ index =>
          have hbit := ih (Nat.lt_of_succ_lt_succ hindex)
          simp [stepBits, Nat.succ_mul, hbit]

theorem Run.testBit_bits {run : Run} {code : Nat} (hcode : run.contains code = true) :
    run.bits.testBit code = true := by
  simp only [contains, Bool.and_eq_true, decide_eq_true_iff, beq_iff_eq] at hcode
  obtain ⟨⟨hfirst, hlast⟩, hstep⟩ := hcode
  have hindex : (code - run.first) / run.step < (run.last - run.first) / run.step + 1 :=
    Nat.lt_succ_of_le (Nat.div_le_div_right (Nat.sub_le_sub_right hlast _))
  have hbit := testBit_stepBits run.step hindex
  rw [Nat.div_mul_cancel (Nat.dvd_of_mod_eq_zero hstep)] at hbit
  rw [bits, Nat.testBit_shiftLeft, hbit, decide_eq_true hfirst]
  rfl

theorem testBit_bitsOf {runs : List Run} {code : Nat}
    (hcode : runs.any (·.contains code) = true) : (bitsOf runs).testBit code = true := by
  induction runs with
  | nil => cases hcode
  | cons run runs ih =>
      rw [List.any_cons, Bool.or_eq_true] at hcode
      rw [bitsOf, List.foldr_cons, ← bitsOf, Nat.testBit_or, Bool.or_eq_true]
      exact hcode.imp Run.testBit_bits ih

/-- Tables without a common bit have no code point in common. -/
theorem any_contains_eq_false {first second : List Run}
    (hapart : bitsOf first &&& bitsOf second = 0) {code : Nat}
    (hfirst : first.any (·.contains code) = true) :
    second.any (·.contains code) = false := by
  rw [← Bool.not_eq_true]
  intro hsecond
  have hbit := Nat.testBit_and (bitsOf first) (bitsOf second) code
  rw [hapart, testBit_bitsOf hfirst, testBit_bitsOf hsecond, Nat.zero_testBit] at hbit
  cases hbit

theorem bits_lowercase_uppercase : bitsOf lowercase &&& bitsOf uppercase = 0 := by decide +kernel

theorem bits_lowercase_toLower : bitsOf lowercase &&& bitsOf (toLower.map (·.run)) = 0 := by
  decide +kernel

/-- The lower-case form of a character beyond ASCII does not end in an underscore. -/
theorem ne_underscore_of_toLower :
    (∀ sequence ∈ toLowerSequence, ∃ last, sequence.2.getLast? = some last ∧ last ≠ 95) ∧
      ∀ shift ∈ toLower, 95 < shift.run.first + shift.distance := by
  constructor
  · decide
  · decide +kernel

end CaseTable

/-! ## Characters -/

variable {char : Char}

/-- What holds of the first 128 code points holds of every ASCII character. -/
theorem of_forall_ascii (holds : Char → Prop) (hall : ∀ code < 128, holds (Char.ofNat code))
    (hascii : char.toNat < 128) : holds char := by
  have hchar := hall char.toNat hascii
  rwa [Char.ofNat_toNat] at hchar

/-- No character is in both cases. -/
theorem isUppercase_of_isLowercase (hlower : isLowercase char = true) :
    isUppercase char = false := by
  by_cases hascii : char.toNat < 128
  · exact of_forall_ascii (fun char => isLowercase char = true → isUppercase char = false)
      (by decide) hascii hlower
  · rw [isLowercase, if_neg hascii] at hlower
    rw [isUppercase, if_neg hascii]
    exact CaseTable.any_contains_eq_false CaseTable.bits_lowercase_uppercase hlower

theorem isLowercase_of_isUppercase (hupper : isUppercase char = true) :
    isLowercase char = false := by
  rw [← Bool.not_eq_true]
  intro hlower
  rw [isUppercase_of_isLowercase hlower] at hupper
  cases hupper

/-- A lower-case character is its own lower-case form. -/
theorem toLowercase_of_isLowercase (hlower : isLowercase char = true) :
    toLowercase char = [char] := by
  by_cases hascii : char.toNat < 128
  · exact of_forall_ascii (fun char => isLowercase char = true → toLowercase char = [char])
      (by decide) hascii hlower
  · rw [isLowercase, if_neg hascii] at hlower
    have hshifts := CaseTable.any_contains_eq_false CaseTable.bits_lowercase_toLower hlower
    have hfind : CaseTable.toLower.find? (·.run.contains char.toNat) = none := by
      rw [List.find?_eq_none]
      intro shift hmem hcontains
      rw [List.any_map, List.any_eq_false] at hshifts
      exact hshifts shift hmem hcontains
    have hlookup : CaseTable.toLowerSequence.lookup char.toNat = none := by
      have hall : ∀ sequence ∈ CaseTable.toLowerSequence,
          CaseTable.lowercase.any (·.contains sequence.1) = false := by decide
      rw [List.lookup_eq_none_iff]
      intro sequence hmem
      rw [bne_iff_ne]
      intro heq
      rw [heq, hall sequence hmem] at hlower
      cases hlower
    rw [toLowercase, if_neg hascii, mapCase, hlookup, hfind]

theorem ofNat_ne_underscore {code : Nat} (hcode : code ≠ 95) : Char.ofNat code ≠ '_' := by
  intro heq
  by_cases hvalid : code.isValidChar
  · rw [Char.ofNat, dif_pos hvalid] at heq
    exact hcode (congrArg Char.toNat heq)
  · rw [Char.ofNat, dif_neg hvalid] at heq
    exact absurd heq (by decide)

/-- The lower-case form of an upper-case character is not empty and does not end in an
underscore. -/
theorem exists_getLast?_toLowercase (hupper : isUppercase char = true) :
    ∃ last, (toLowercase char).getLast? = some last ∧ last ≠ '_' := by
  by_cases hascii : char.toNat < 128
  · refine ⟨asciiLower char, by rw [toLowercase, if_pos hascii]; rfl, ?_⟩
    exact of_forall_ascii (fun char => isUppercase char = true → asciiLower char ≠ '_')
      (by decide) hascii hupper
  · rw [toLowercase, if_neg hascii, mapCase]
    split
    next image hlookup =>
      obtain ⟨front, back, hsequence, -⟩ := List.lookup_eq_some_iff.mp hlookup
      obtain ⟨last, hlast, hne⟩ := CaseTable.ne_underscore_of_toLower.1 (char.toNat, image)
        (by simp [hsequence])
      exact ⟨Char.ofNat last, by rw [List.getLast?_map, hlast]; rfl, ofNat_ne_underscore hne⟩
    next =>
      split
      next shift hfind =>
        have hcontains := List.find?_some hfind
        have hshift := CaseTable.ne_underscore_of_toLower.2 shift (List.mem_of_find?_eq_some hfind)
        simp only [CaseTable.Run.contains, Bool.and_eq_true, decide_eq_true_iff] at hcontains
        exact ⟨_, rfl, ofNat_ne_underscore (by omega)⟩
      next =>
        refine ⟨char, rfl, ?_⟩
        rintro rfl
        exact hascii (by decide)

theorem lt_of_isAsciiDigit (hdigit : isAsciiDigit char = true) : char.toNat < 128 := by
  rw [isAsciiDigit, Bool.and_eq_true, decide_eq_true_iff, decide_eq_true_iff] at hdigit
  exact Nat.lt_of_le_of_lt hdigit.2 (by decide)

/-- A digit has no case. -/
theorem caseless_of_isAsciiDigit (hdigit : isAsciiDigit char = true) :
    isUppercase char = false ∧ toLowercase char = [char] :=
  of_forall_ascii (fun char => isAsciiDigit char = true →
    isUppercase char = false ∧ toLowercase char = [char]) (by decide)
    (lt_of_isAsciiDigit hdigit) hdigit

/-- An ASCII character has one character in lower case, which is itself if it is not a capital. -/
theorem toLowercase_of_ascii (hascii : char.toNat < 128) : toLowercase char = [char.toLower] ∧
    (isUppercase char = false → char.toLower = char) :=
  of_forall_ascii (fun char => toLowercase char = [char.toLower] ∧
    (isUppercase char = false → char.toLower = char)) (by decide) hascii

/-- The lower-case form of an ASCII capital is a lower-case letter. -/
theorem toLower_of_isUppercase (hascii : char.toNat < 128) (hupper : isUppercase char = true) :
    isLowercase char.toLower = true :=
  of_forall_ascii (fun char => isUppercase char = true → isLowercase char.toLower = true)
    (by decide) hascii hupper

/-! ## Texts -/

/-- A text with each of its characters in lower case. -/
def lowercase (text : String) : String := String.ofList (text.toList.flatMap toLowercase)

/-- The characters of an ASCII text are put in lower case letter by letter. -/
theorem lowercase_of_ascii {text : String} (hascii : ∀ char ∈ text.toList, char.toNat < 128) :
    lowercase text = text.toLower := by
  have hchars : text.toList.flatMap toLowercase = text.toList.map Char.toLower := by
    rw [List.map_eq_flatMap, List.flatMap_def, List.flatMap_def,
      List.map_congr_left fun char hchar => (toLowercase_of_ascii (hascii char hchar)).1]
  rw [lowercase, hchars, ← String.toList_map, String.ofList_toList]
  rfl

end EntityModel.Text
