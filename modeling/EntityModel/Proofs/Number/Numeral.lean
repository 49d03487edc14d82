import EntityModel.Proofs.Number.Decimal
import EntityModel.Proofs.Number.Digits

/-!
# Numerals read back

A numeral in its parts, the decimal that it writes, and the numerals that styles with fractions
write: each of them reads back as the double it was written for.
-/

namespace EntityModel

namespace Numeral

open Text

/-! ## Digits -/

theorem isAsciiDigit_iff {char : Char} :
    isAsciiDigit char = true ↔ 48 ≤ char.toNat ∧ char.toNat ≤ 57 := by
  simp only [isAsciiDigit, Bool.and_eq_true, decide_eq_true_eq]
  rfl

theorem isAsciiDigit_of_mem_toDigits {value : Nat} {char : Char}
    (hmem : char ∈ Nat.toDigits 10 value) : isAsciiDigit char = true := by
  have hdigit := Nat.isDigit_of_mem_toDigits (by decide) (by decide) hmem
  rw [Char.isDigit, Bool.and_eq_true, decide_eq_true_eq, decide_eq_true_eq] at hdigit
  exact isAsciiDigit_iff.mpr hdigit

theorem ofDecimalDigits_eq (digits : List Char) :
    ofDecimalDigits digits = Nat.ofDigitChars 10 digits 0 := by
  rw [ofDecimalDigits, Nat.ofDigitChars_eq_foldl]
  simp only [Nat.mul_comm]
  rfl

theorem ofDecimalDigits_append_zeros (value zeros : Nat) :
    ofDecimalDigits (Nat.toDigits 10 value ++ List.replicate zeros '0') = value * 10 ^ zeros := by
  rw [ofDecimalDigits_eq, Nat.ofDigitChars_append, Nat.ofDigitChars_ten_toDigits,
    Nat.ofDigitChars_replicate_zero, Nat.mul_comm]

theorem ofDecimalDigits_toDigits (value : Nat) :
    ofDecimalDigits (Nat.toDigits 10 value) = value := by
  rw [ofDecimalDigits_eq, Nat.ofDigitChars_ten_toDigits]

/-- Zeros in front of digits do not count. -/
theorem ofDecimalDigits_zeros_append (zeros : Nat) (digits : List Char) :
    ofDecimalDigits (List.replicate zeros '0' ++ digits) = ofDecimalDigits digits := by
  simp only [ofDecimalDigits_eq, Nat.ofDigitChars_append, Nat.ofDigitChars_replicate_zero,
    Nat.mul_zero]

theorem withDigit?_of_isAsciiDigit {char : Char} (hchar : isAsciiDigit char = true) (front : Nat) :
    withDigit? 10 front char = some (front * 10 + (char.toNat - 48)) := by
  have hlt : char.toNat - 48 < 10 := by
    have hbounds := isAsciiDigit_iff.mp hchar
    omega
  simp only [withDigit?, digitValue?, hchar, if_true, Option.bind_some, hlt]

theorem ofDigits?_eq_some {digits : List Char} (hne : digits ≠ [])
    (hdigits : ∀ char ∈ digits, isAsciiDigit char = true) :
    ofDigits? 10 digits = some (ofDecimalDigits digits) := by
  rw [ofDigits?_eq_foldlM 10 hne, ofDecimalDigits]
  clear hne
  generalize 0 = front
  induction digits generalizing front with
  | nil => rfl
  | cons char digits ih =>
      obtain ⟨hchar, hrest⟩ := List.forall_mem_cons.mp hdigits
      rw [List.foldlM_cons, withDigit?_of_isAsciiDigit hchar, List.foldl_cons]
      exact ih hrest _

theorem ofDigits?_toDigits (value : Nat) : ofDigits? 10 (Nat.toDigits 10 value) = some value := by
  rw [ofDigits?_eq_some Nat.toDigits_ne_nil fun _ => isAsciiDigit_of_mem_toDigits,
    ofDecimalDigits_toDigits]

/-! ## The parts of a numeral -/

/-- Whether digits are a whole number without needless zeros in front. -/
def isWhole (digits : List Char) : Bool :=
  digits.all isAsciiDigit && (digits = ['0'] || digits.head?.any (· ≠ '0'))

/-- Whether a character may stand in a numeral. -/
def isNumeralChar (char : Char) : Bool :=
  isAsciiDigit char || ['.', 'e', '+', '-'].contains char

/-- The digits of a positive number do not start with a zero. -/
theorem exists_toDigits_eq_cons {value : Nat} (hpos : 0 < value) :
    ∃ first rest, Nat.toDigits 10 value = first :: rest ∧ first ≠ '0' := by
  induction value using Nat.strongRecOn with
  | ind value ih =>
      rw [Nat.toDigits_eq_if (by decide)]
      split
      next hlt =>
        refine ⟨_, [], rfl, fun hzero => ?_⟩
        rw [Nat.digitChar_eq_zero] at hzero
        omega
      next =>
        obtain ⟨first, rest, hdigits, hfirst⟩ := ih (value / 10) (by omega) (by omega)
        exact ⟨first, rest ++ [Nat.digitChar (value % 10)], by rw [hdigits]; rfl, hfirst⟩

theorem isWhole_cons {first : Char} {rest : List Char} (hfirst : first ≠ '0')
    (hdigits : ∀ char ∈ first :: rest, isAsciiDigit char = true) :
    isWhole (first :: rest) = true := by
  rw [isWhole, List.all_eq_true.mpr hdigits]
  simp [hfirst]

/-- Digits of a number, with zeros behind them unless it is zero, are a whole number. -/
theorem isWhole_toDigits_append {value zeros : Nat} (hzero : value = 0 → zeros = 0) :
    isWhole (Nat.toDigits 10 value ++ List.replicate zeros '0') = true := by
  rcases Nat.eq_zero_or_pos value with rfl | hpos
  · rw [hzero rfl]
    rfl
  · obtain ⟨first, rest, hdigits, hfirst⟩ := exists_toDigits_eq_cons hpos
    have hall : ∀ char ∈ Nat.toDigits 10 value ++ List.replicate zeros '0',
        isAsciiDigit char = true := by
      intro char hchar
      rcases List.mem_append.mp hchar with hmem | hmem
      · exact isAsciiDigit_of_mem_toDigits hmem
      · rw [List.eq_of_mem_replicate hmem]
        rfl
    rw [hdigits, List.cons_append] at hall ⊢
    exact isWhole_cons hfirst hall

/-- A numeral without a sign: a whole number, digits behind the point, and the text of an exponent
with its value. -/
structure Parts where
  whole : List Char
  fraction : List Char
  power : List Char
  exponent : Int
  isWhole_whole : isWhole whole = true
  isDigit_fraction : ∀ char ∈ fraction, isAsciiDigit char = true
  exponent?_power : exponent? power = some exponent
  isNumeralChar_power : ∀ char ∈ power, isNumeralChar char = true

namespace Parts

variable {parts : Parts}

def text (parts : Parts) : List Char :=
  parts.whole ++ ((if parts.fraction = [] then [] else '.' :: parts.fraction) ++ parts.power)

/-- The decimal that a numeral writes. -/
def decimal (parts : Parts) : Decimal :=
  ⟨ofDecimalDigits (parts.whole ++ parts.fraction), parts.exponent - parts.fraction.length⟩

theorem isDigit_whole : ∀ char ∈ parts.whole, isAsciiDigit char = true :=
  List.all_eq_true.mp (Bool.and_eq_true_iff.mp parts.isWhole_whole).1

theorem whole_ne_nil : parts.whole ≠ [] := by
  intro hnil
  have hwhole := parts.isWhole_whole
  rw [hnil] at hwhole
  cases hwhole

/-- An exponent starts with neither a digit nor a point. -/
theorem power_eq_nil_or_cons : parts.power = [] ∨
    ∃ char rest, parts.power = char :: rest ∧ isAsciiDigit char = false ∧ char ≠ '.' := by
  have hpower := parts.exponent?_power
  cases heq : parts.power with
  | nil => exact Or.inl rfl
  | cons char rest =>
      by_cases hletter : char = 'e' ∨ char = 'E'
      · refine Or.inr ⟨char, rest, rfl, ?_⟩
        rcases hletter with rfl | rfl <;> decide
      · simp [heq, exponent?, hletter] at hpower

/-- Digits end where no digit follows. -/
theorem span_digits {digits after : List Char} (hdigits : ∀ char ∈ digits, isAsciiDigit char = true)
    (hafter : after = [] ∨ ∃ char rest, after = char :: rest ∧ isAsciiDigit char = false) :
    (digits ++ after).takeWhile isAsciiDigit = digits ∧
      (digits ++ after).dropWhile isAsciiDigit = after := by
  rw [List.takeWhile_append_of_pos hdigits, List.dropWhile_append_of_pos hdigits]
  rcases hafter with rfl | ⟨char, rest, rfl, hchar⟩
  · simp
  · simp [hchar]

theorem span_fraction_power : (parts.fraction ++ parts.power).takeWhile isAsciiDigit =
    parts.fraction ∧ (parts.fraction ++ parts.power).dropWhile isAsciiDigit = parts.power :=
  span_digits parts.isDigit_fraction <| parts.power_eq_nil_or_cons.imp_right
    fun ⟨char, rest, heq, hchar, _⟩ => ⟨char, rest, heq, hchar⟩

theorem span_text : parts.text.takeWhile isAsciiDigit = parts.whole ∧
    parts.text.dropWhile isAsciiDigit =
      (if parts.fraction = [] then [] else '.' :: parts.fraction) ++ parts.power := by
  refine span_digits parts.isDigit_whole ?_
  split
  · exact parts.power_eq_nil_or_cons.imp_right fun ⟨char, rest, heq, hchar, _⟩ =>
      ⟨char, rest, heq, hchar⟩
  · exact Or.inr ⟨'.', _, rfl, rfl⟩

/-- A numeral reads as the decimal that it writes. -/
theorem decimal?_text : decimal? parts.text = some parts.decimal := by
  have hwhole : parts.whole.isEmpty = false := List.isEmpty_eq_false_iff.mpr parts.whole_ne_nil
  unfold decimal?
  rw [span_text.1, span_text.2]
  by_cases hnone : parts.fraction = []
  · have hpower := parts.exponent?_power
    rw [if_pos hnone, List.nil_append, decimal, hnone, List.append_nil]
    rcases parts.power_eq_nil_or_cons with hnil | ⟨char, rest, hcons, _, hpoint⟩
    · rw [hnil] at hpower ⊢
      simp [hwhole, hpower]
    · rw [hcons] at hpower ⊢
      simp [hwhole, hpower, hpoint]
  · rw [if_neg hnone, List.cons_append]
    simp only [span_fraction_power, hwhole, Bool.false_and, Bool.false_eq_true, if_false,
      parts.exponent?_power, Option.map_some, decimal]

theorem isNumeralChar_text : ∀ char ∈ parts.text, isNumeralChar char = true := by
  have hdigit : ∀ char, isAsciiDigit char = true → isNumeralChar char = true :=
    fun char hchar => by rw [isNumeralChar, hchar, Bool.true_or]
  intro char hchar
  rw [text, List.mem_append, List.mem_append] at hchar
  rcases hchar with hwhole | hfraction | hpower
  · exact hdigit char (parts.isDigit_whole char hwhole)
  · split at hfraction
    · cases hfraction
    · rcases List.mem_cons.mp hfraction with rfl | hmem
      · rfl
      · exact hdigit char (parts.isDigit_fraction char hmem)
  · exact parts.isNumeralChar_power char hpower

/-- A numeral with a sign in front reads as the number that it writes. -/
theorem number?_text (negative : Bool) :
    number? ((if negative then ['-'] else []) ++ parts.text) =
      some (parts.decimal.toNumber negative) := by
  cases negative with
  | true =>
      change (decimal? parts.text).map (·.toNumber true) = _
      rw [decimal?_text, Option.map_some]
  | false =>
      rw [if_neg (by decide), List.nil_append]
      obtain ⟨first, rest, hcons⟩ := List.exists_cons_of_ne_nil parts.whole_ne_nil
      have hdigit := parts.isDigit_whole first (by simp [hcons])
      have hread := parts.decimal?_text
      have htext : parts.text = first :: (rest ++ ((if parts.fraction = [] then []
          else '.' :: parts.fraction) ++ parts.power)) := by
        rw [text, hcons, List.cons_append]
      rw [htext] at hread ⊢
      unfold number?
      split
      next heq =>
        rw [(List.cons.inj heq).1] at hdigit
        cases hdigit
      next heq =>
        rw [(List.cons.inj heq).1] at hdigit
        cases hdigit
      next => rw [hread, Option.map_some]

/-! ## Styles -/

variable {style : NumberStyle}

/-- Whether a numeral is written with a point or an exponent and reads as the value of a decimal. -/
structure Writes (parts : Parts) (decimal : Decimal) : Prop where
  isMarked : parts.fraction ≠ [] ∨ parts.power ≠ []
  toNumber_eq : ∀ negative, parts.decimal.toNumber negative = decimal.toNumber negative

/-- A decimal without an exponent to write: a whole number with the fraction `.0`. -/
theorem exists_writes_whole {digits zeros : Nat} (hzero : digits = 0 → zeros = 0) :
    ∃ parts : Parts, parts.text =
      Nat.toDigits 10 digits ++ List.replicate zeros '0' ++ ['.', '0'] ∧
      parts.Writes ⟨digits, zeros⟩ := by
  refine ⟨⟨Nat.toDigits 10 digits ++ List.replicate zeros '0', ['0'], [], 0,
    isWhole_toDigits_append hzero, List.forall_mem_singleton.mpr rfl, rfl, nofun⟩, rfl,
    Or.inl (by simp), fun negative => ?_⟩
  have hshift := Decimal.toNumber_shift negative digits zeros (zeros + 1)
  rw [← hshift]
  congr 1
  simp only [decimal, List.append_assoc, ← List.replicate_succ', ofDecimalDigits_append_zeros,
    List.length_singleton, Decimal.mk.injEq, true_and]
  push_cast
  ring

/-- A decimal less than one: zeros between the point and the digits. -/
theorem exists_writes_below {digits places : Nat} (hplaces : 0 < places)
    (hfew : (Nat.toDigits 10 digits).length ≤ places) :
    ∃ parts : Parts, parts.text = '0' :: '.' ::
      List.replicate (places - (Nat.toDigits 10 digits).length) '0' ++ Nat.toDigits 10 digits ∧
      parts.Writes ⟨digits, -(places : Int)⟩ := by
  have hlength : (List.replicate (places - (Nat.toDigits 10 digits).length) '0' ++
      Nat.toDigits 10 digits).length = places := by
    rw [List.length_append, List.length_replicate, Nat.sub_add_cancel hfew]
  have hread : ofDecimalDigits (List.replicate (places - (Nat.toDigits 10 digits).length) '0' ++
      Nat.toDigits 10 digits) = digits := by
    rw [ofDecimalDigits_zeros_append, ofDecimalDigits_toDigits]
  have hdigits : ∀ char ∈ List.replicate (places - (Nat.toDigits 10 digits).length) '0' ++
      Nat.toDigits 10 digits, isAsciiDigit char = true := by
    intro char hchar
    rcases List.mem_append.mp hchar with hmem | hmem
    · rw [List.eq_of_mem_replicate hmem]
      rfl
    · exact isAsciiDigit_of_mem_toDigits hmem
  have hne := List.ne_nil_of_length_pos (hlength ▸ hplaces)
  rw [List.cons_append, List.cons_append]
  generalize List.replicate (places - (Nat.toDigits 10 digits).length) '0' ++
    Nat.toDigits 10 digits = fraction at hlength hread hdigits hne ⊢
  refine ⟨⟨['0'], fraction, [], 0, by decide, hdigits, rfl, nofun⟩, ?_, Or.inl hne, ?_⟩
  · rw [text, if_neg hne, List.append_nil]
    rfl
  · intro negative
    have hzeros := ofDecimalDigits_zeros_append 1 fraction
    rw [Parts.decimal, hlength, zero_sub]
    exact congrArg (fun digits => Decimal.toNumber negative ⟨digits, _⟩) (hzeros.trans hread)

/-- A decimal with the point among its digits. -/
theorem exists_writes_among {digits places : Nat} (hpos : 0 < digits) (hplaces : 0 < places)
    (hmany : places < (Nat.toDigits 10 digits).length) :
    ∃ parts : Parts, parts.text =
      (Nat.toDigits 10 digits).take ((Nat.toDigits 10 digits).length - places) ++
        '.' :: (Nat.toDigits 10 digits).drop ((Nat.toDigits 10 digits).length - places) ∧
      parts.Writes ⟨digits, -(places : Int)⟩ := by
  have hsplit := List.take_append_drop ((Nat.toDigits 10 digits).length - places)
    (Nat.toDigits 10 digits)
  have hlength : ((Nat.toDigits 10 digits).drop
      ((Nat.toDigits 10 digits).length - places)).length = places := by
    rw [List.length_drop]
    omega
  have hwhole : isWhole ((Nat.toDigits 10 digits).take
      ((Nat.toDigits 10 digits).length - places)) = true := by
    obtain ⟨count, hcount⟩ := Nat.exists_eq_add_one.mpr (Nat.sub_pos_of_lt hmany)
    obtain ⟨first, rest, hdigits, hfirst⟩ := exists_toDigits_eq_cons hpos
    rw [hcount, hdigits, List.take_succ_cons]
    refine isWhole_cons hfirst fun char hchar => ?_
    have hmem : char ∈ Nat.toDigits 10 digits := by
      rw [hdigits]
      exact List.mem_of_mem_take (i := count + 1) (by rwa [List.take_succ_cons])
    exact isAsciiDigit_of_mem_toDigits hmem
  have hne := List.ne_nil_of_length_pos (hlength ▸ hplaces)
  refine ⟨⟨_, _, [], 0, hwhole, fun char hchar =>
    isAsciiDigit_of_mem_toDigits (List.mem_of_mem_drop hchar), rfl, nofun⟩, ?_, Or.inl hne, ?_⟩
  · rw [text, if_neg hne, List.append_nil]
  · intro negative
    rw [Parts.decimal, hlength, zero_sub, hsplit, ofDecimalDigits_toDigits]

/-- A decimal without an exponent is written by one of these three. -/
theorem exists_writes_positionalText (decimal : Decimal) (hfraction : style.fraction = true)
    (hzero : decimal.digits = 0 → decimal.exponent = 0) :
    ∃ parts : Parts, parts.text = style.positionalText decimal ∧ parts.Writes decimal := by
  obtain ⟨digits, exponent⟩ := decimal
  unfold NumberStyle.positionalText
  dsimp only at hzero ⊢
  by_cases hsign : 0 ≤ exponent
  · obtain ⟨zeros, rfl⟩ := Int.eq_ofNat_of_zero_le hsign
    rw [if_pos hsign, if_pos hfraction, Int.toNat_natCast]
    exact exists_writes_whole fun hnone => Int.natCast_eq_zero.mp (hzero hnone)
  · obtain ⟨places, hexponent⟩ := Int.eq_ofNat_of_zero_le (show 0 ≤ -exponent by omega)
    have hplaces : 0 < places := by omega
    obtain rfl : exponent = -(places : Int) := by omega
    rw [if_neg hsign, neg_neg, Int.toNat_natCast]
    by_cases hfew : (Nat.toDigits 10 digits).length ≤ places
    · rw [if_pos hfew]
      exact exists_writes_below hplaces hfew
    · have hpos : 0 < digits := by
        rcases Nat.eq_zero_or_pos digits with hnone | hpos
        · have hexponent := hzero hnone
          omega
        · exact hpos
      rw [if_neg hfew]
      exact exists_writes_among hpos hplaces (Nat.lt_of_not_le hfew)

/-- The sign and the digits of an exponent. -/
theorem exponent?_signed (exponent : Int) : exponent?
    ('e' :: (if exponent < 0 then '-' else '+') :: Nat.toDigits 10 exponent.natAbs) =
      some exponent := by
  by_cases hnegative : exponent < 0
  · simp [hnegative, exponent?, ofDigits?_toDigits, abs_of_neg hnegative]
  · simp [hnegative, exponent?, ofDigits?_toDigits, abs_of_nonneg (not_lt.mp hnegative)]

theorem exists_writes_exponentText (decimal : Decimal) (hpos : 0 < decimal.digits) :
    ∃ parts : Parts, parts.text = NumberStyle.exponentText decimal ∧ parts.Writes decimal := by
  obtain ⟨digits, exponent⟩ := decimal
  obtain ⟨first, rest, hdigits, hfirst⟩ := exists_toDigits_eq_cons hpos
  have hall : ∀ char ∈ first :: rest, isAsciiDigit char = true := fun char hchar =>
    isAsciiDigit_of_mem_toDigits (hdigits ▸ hchar)
  have hread : ofDecimalDigits (first :: rest) = digits := by
    rw [← hdigits, ofDecimalDigits_toDigits]
  have hpower : ∀ char ∈ 'e' :: (if exponent + rest.length < 0 then '-' else '+') ::
      Nat.toDigits 10 (exponent + rest.length).natAbs, isNumeralChar char = true := by
    intro char hchar
    rcases List.mem_cons.mp hchar with rfl | hchar
    · rfl
    rcases List.mem_cons.mp hchar with rfl | hchar
    · split <;> rfl
    · rw [isNumeralChar, isAsciiDigit_of_mem_toDigits hchar, Bool.true_or]
  refine ⟨⟨[first], rest, _, exponent + rest.length,
    isWhole_cons hfirst (List.forall_mem_singleton.mpr (hall first List.mem_cons_self)),
    (List.forall_mem_cons.mp hall).2, exponent?_signed _, hpower⟩, ?_, Or.inr (by simp), ?_⟩
  · unfold NumberStyle.exponentText
    dsimp only at hdigits ⊢
    rw [hdigits, text]
    cases rest <;> simp
  · intro negative
    rw [Parts.decimal, List.singleton_append, hread, add_sub_cancel_right]

/-- The text of a finite number: a sign and a numeral that reads as its magnitude. -/
theorem exists_text_finite (hfraction : style.fraction = true) (negative : Bool)
    (magnitude : Magnitude) : ∃ parts : Parts,
      (style.text (.finite negative magnitude)).toList =
        (if negative then ['-'] else []) ++ parts.text ∧
      (parts.fraction ≠ [] ∨ parts.power ≠ []) ∧
      parts.decimal.toNumber negative = .finite negative magnitude := by
  rw [NumberStyle.text, String.toList_ofList, NumberStyle.magnitudeText]
  by_cases hzero : magnitude.rank = 0
  · obtain ⟨parts, htext, hwrites⟩ :=
      exists_writes_positionalText ⟨0, 0⟩ hfraction fun _ => rfl
    refine ⟨parts, by rw [if_pos hzero, htext], hwrites.isMarked, ?_⟩
    obtain ⟨rank, hrank⟩ := magnitude
    subst hzero
    exact hwrites.toNumber_eq negative
  · have hdenotes : (magnitude.shortest style.tie).Denotes magnitude :=
      Magnitude.shortest_denotes
    have hpos : 0 < (magnitude.shortest style.tie).digits := by
      refine Nat.pos_of_ne_zero fun hnone => hzero ?_
      rw [Decimal.Denotes, Decimal.toNumber, if_pos hnone, Number.finite.injEq] at hdenotes
      rw [← hdenotes.2]
      rfl
    rw [if_neg hzero]
    -- Nothing but this matters of the shortest decimal: it denotes the magnitude and is not zero.
    generalize magnitude.shortest style.tie = decimal at hdenotes hpos ⊢
    have hread := Decimal.toNumber_of_denotes hdenotes negative
    dsimp only
    by_cases hpositional :
        style.positional (Decimal.width decimal.digits + decimal.exponent) = true
    · obtain ⟨parts, htext, hwrites⟩ := exists_writes_positionalText decimal hfraction
        fun hnone => absurd hnone hpos.ne'
      rw [if_pos hpositional, ← htext]
      exact ⟨parts, rfl, hwrites.isMarked, (hwrites.toNumber_eq negative).trans hread⟩
    · obtain ⟨parts, htext, hwrites⟩ := exists_writes_exponentText decimal hpos
      rw [if_neg hpositional, ← htext]
      exact ⟨parts, rfl, hwrites.isMarked, (hwrites.toNumber_eq negative).trans hread⟩

end Parts

end Numeral

end EntityModel
