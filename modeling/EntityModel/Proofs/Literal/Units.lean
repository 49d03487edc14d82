import EntityModel.Proofs.Literal.Continuation
import Mathlib.Algebra.Group.Nat.Defs

/-!
# The code units of a literal

What a string literal, or a template literal without holes, stands for in the language that it is
written in: code units, in which a half of a surrogate pair may stand alone.
-/

namespace EntityModel.Literal

open Text (isAsciiDigit)

/-- The code units of a code point: itself, or the halves of a surrogate pair. -/
def codeUnits (code : Nat) : List Nat :=
  if code < 0x10000 then [code]
  else [0xd800 + (code - 0x10000) / 0x400, 0xdc00 + (code - 0x10000) % 0x400]

def unitsOf (text : List Char) : List Nat := text.flatMap fun char => codeUnits char.toNat

/-- What a backslash stands for with what is behind it, and the number of characters that are. A
continued line stands for nothing. Digits other than a lone zero are not escaped. -/
def escapeUnits? : List Char → Option (List Nat × Nat)
  | [] => none
  | 'x' :: text => (hex? 2 text).map fun code => ([code], 3)
  | 'u' :: '\x7b' :: text =>
    let digits := text.takeWhile (· ≠ '\x7d')
    match Numeral.ofDigits? 16 digits with
    | some code =>
      if digits.length < text.length ∧ code ≤ 0x10ffff then
        some (codeUnits code, digits.length + 3)
      else none
    | none => none
  | 'u' :: text => (hex? 4 text).map fun code => ([code], 5)
  | '\r' :: '\n' :: _ => some ([], 2)
  | char :: text =>
    if [char] ∈ lineEnds then some ([], 1)
    else if isAsciiDigit char ∧ (char ≠ '0' ∨ text.head?.any isAsciiDigit) then none
    else some (unitsOf [(letterEscapes.lookup char).getD char], 1)

/-- What a character other than a backslash stands for, and the number of characters that belong to
it. Only a template goes on behind the end of a line, which stands for a line feed there. -/
def bareUnits? (quote char : Char) (text : List Char) : Option (List Nat × Nat) :=
  if char = quote then none
  else if quote = '\x60' then
    if char = '$' ∧ text.head? = some '\x7b' then none
    else if char = '\r' then some ([10], if text.head? = some '\n' then 1 else 0)
    else some (codeUnits char.toNat, 0)
  else if char = '\n' ∨ char = '\r' then none
  else some (codeUnits char.toNat, 0)

def elementUnits? (quote char : Char) (text : List Char) : Option (List Nat × Nat) :=
  if char = '\\' then escapeUnits? text else bareUnits? quote char text

/-- What the inside of a literal between two quotation marks stands for. -/
def insideUnits? (quote : Char) : List Char → Option (List Nat)
  | [] => some []
  | char :: text =>
    match elementUnits? quote char text with
    | none => none
    | some (units, count) => (insideUnits? quote (text.drop count)).map (units ++ ·)
termination_by text => text.length
decreasing_by simp only [List.length_cons, List.length_drop]; omega

/-- What a literal stands for. -/
def units? : List Char → Option (List Nat)
  | [] => none
  | quote :: text =>
    if quote ∈ ['\x22', '\x27', '\x60'] ∧ text.getLast? = some quote then
      insideUnits? quote text.dropLast
    else none

variable {quote char : Char} {text rest : List Char} {units others : List Nat} {count : Nat}

theorem insideUnits?_nil : insideUnits? quote [] = some [] := by
  rw [insideUnits?]

theorem insideUnits?_cons_of_eq (helement : elementUnits? quote char text = some (units, count)) :
    insideUnits? quote (char :: text) =
      (insideUnits? quote (text.drop count)).map (units ++ ·) := by
  rw [insideUnits?, helement]

theorem insideUnits?_cons_eq_some_iff :
    insideUnits? quote (char :: text) = some units ↔ ∃ first count others,
      elementUnits? quote char text = some (first, count) ∧
      insideUnits? quote (text.drop count) = some others ∧ units = first ++ others := by
  rw [insideUnits?]
  cases elementUnits? quote char text with
  | none => simp
  | some element =>
      obtain ⟨first, count⟩ := element
      simp only [Option.map_eq_some_iff, Option.some.injEq, Prod.mk.injEq]
      constructor
      · rintro ⟨others, hothers, rfl⟩
        exact ⟨first, count, others, ⟨rfl, rfl⟩, hothers, rfl⟩
      · rintro ⟨_, _, others, ⟨rfl, rfl⟩, hothers, rfl⟩
        exact ⟨others, hothers, rfl⟩

theorem units?_eq_some_iff {literal : List Char} : units? literal = some units ↔
    ∃ quote text, literal = quote :: (text ++ [quote]) ∧ quote ∈ ['\x22', '\x27', '\x60'] ∧
      insideUnits? quote text = some units := by
  cases literal with
  | nil => simp [units?]
  | cons quote text =>
      rw [units?, Option.ite_none_right_eq_some]
      constructor
      · rintro ⟨⟨hquote, hlast⟩, hunits⟩
        obtain ⟨inside, rfl⟩ := List.getLast?_eq_some_iff.mp hlast
        rw [List.dropLast_concat] at hunits
        exact ⟨quote, inside, rfl, hquote, hunits⟩
      · rintro ⟨_, inside, heq, hquote, hunits⟩
        obtain ⟨rfl, rfl⟩ := List.cons.inj heq
        exact ⟨⟨hquote, List.getLast?_concat⟩, by rwa [List.dropLast_concat]⟩

/-! ## Code units -/

@[simp] theorem unitsOf_nil : unitsOf [] = [] := rfl

@[simp] theorem unitsOf_cons (char : Char) (text : List Char) :
    unitsOf (char :: text) = codeUnits char.toNat ++ unitsOf text := List.flatMap_cons

@[simp] theorem unitsOf_append (front back : List Char) :
    unitsOf (front ++ back) = unitsOf front ++ unitsOf back := List.flatMap_append

theorem codeUnits_of_lt {code : Nat} (hcode : code < 0x10000) : codeUnits code = [code] :=
  if_pos hcode

theorem length_codeUnits (code : Nat) :
    1 ≤ (codeUnits code).length ∧ (codeUnits code).length ≤ 2 := by
  unfold codeUnits
  split <;> simp

theorem length_le_length_unitsOf (text : List Char) : text.length ≤ (unitsOf text).length := by
  induction text with
  | nil => exact Nat.le_refl _
  | cons char text ih =>
      have hpos := (length_codeUnits char.toNat).1
      rw [unitsOf_cons, List.length_append, List.length_cons]
      omega

theorem lt_pow_of_hasValue {base number : Nat} {digits : List Char}
    (hvalue : Numeral.HasValue base digits number) : number < base ^ digits.length := by
  induction hvalue with
  | one _ hlt => simpa using hlt
  | @behind digits digit front value _ _ hlt ih =>
      rw [List.length_append, List.length_singleton, Nat.pow_succ]
      calc front * base + value < front * base + base := Nat.add_lt_add_left hlt _
        _ = (front + 1) * base := (Nat.succ_mul front base).symm
        _ ≤ base ^ digits.length * base := Nat.mul_le_mul_right base ih

theorem IsHex.codeUnits_eq {code : Nat} {digits : List Char} (hdigits : IsHex count digits code)
    (hcount : count ≤ 4) : codeUnits code = [code] := by
  have hlt := lt_pow_of_hasValue hdigits.2
  have hle : 16 ^ digits.length ≤ 16 ^ 4 := Nat.pow_le_pow_right (by decide) (hdigits.1 ▸ hcount)
  exact codeUnits_of_lt (Nat.lt_of_lt_of_le hlt hle)

/-! ## Spelled characters -/

theorem hex?_append {digits : List Char} {code : Nat} (hdigits : IsHex count digits code)
    (rest : List Char) : hex? count (digits ++ rest) = some code :=
  hex?_eq_some_iff.mpr ⟨digits, rest, rfl, hdigits⟩

theorem escapeUnits?_of_head? (hhead : text.head? ≠ some '\x7b') :
    escapeUnits? ('u' :: text) = (hex? 4 text).map fun code => ([code], 5) := by
  rw [escapeUnits?]
  rintro others rfl
  exact hhead rfl

theorem escapeUnits?_unit {digits : List Char} {code : Nat} (hdigits : IsHex 4 digits code)
    (rest : List Char) : escapeUnits? ('u' :: (digits ++ rest)) = some ([code], 5) := by
  have hhead : (digits ++ rest).head? ≠ some '\x7b' := by
    rw [List.head?_append_of_ne_nil _ hdigits.2.ne_nil]
    exact hdigits.head?_ne
  rw [escapeUnits?_of_head? hhead, hex?_append hdigits, Option.map_some]

theorem escapeUnits?_braced {digits : List Char} {code : Nat} (hdigits : IsHex count digits code)
    (hcode : code ≤ 0x10ffff) (rest : List Char) :
    escapeUnits? ('u' :: '\x7b' :: (digits ++ '\x7d' :: rest)) =
      some (codeUnits code, count + 3) := by
  have htake := takeWhile_digits hdigits rest
  have hread := Numeral.ofDigits?_eq_some_iff.mpr hdigits.2
  simp only [escapeUnits?, htake, hread, hdigits.1]
  rw [if_pos ⟨by simp [hdigits.1], hcode⟩]

/-- What stands behind a backslash without a code point: a line end of two characters, one of a
single character, or a character that is escaped. Of digits only a lone zero is. -/
theorem escapeUnits?_cases (hletter : char ≠ 'x' ∧ char ≠ 'u')
    (hescape : escapeUnits? (char :: text) = some (units, count)) :
    (∃ rest, char = '\r' ∧ text = '\n' :: rest ∧ units = [] ∧ count = 2) ∨
    ([char] ∈ lineEnds ∧ units = [] ∧ count = 1) ∨
    ([char] ∉ lineEnds ∧
      (isAsciiDigit char = true → char = '0' ∧ text.head?.any isAsciiDigit = false) ∧
      units = codeUnits ((letterEscapes.lookup char).getD char).toNat ∧ count = 1) := by
  unfold escapeUnits? at hescape
  split at hescape
  next heq => cases heq
  next heq => exact absurd (List.cons.inj heq).1 hletter.1
  next heq => exact absurd (List.cons.inj heq).1 hletter.2
  next heq => exact absurd (List.cons.inj heq).1 hletter.2
  next rest heq =>
    obtain ⟨rfl, rfl⟩ := List.cons.inj heq
    cases hescape
    exact Or.inl ⟨rest, rfl, rfl, rfl, rfl⟩
  next heq =>
    obtain ⟨rfl, rfl⟩ := List.cons.inj heq
    split at hescape
    next hline =>
      cases hescape
      exact Or.inr (Or.inl ⟨hline, rfl, rfl⟩)
    next hline =>
    split at hescape
    next => cases hescape
    next hdigit =>
      cases hescape
      rw [not_and, not_or, not_not, Bool.not_eq_true] at hdigit
      exact Or.inr (Or.inr ⟨hline, hdigit, List.append_nil _, rfl⟩)

/-- A backslash before a character that opens no code point and ends no line. -/
theorem escapeUnits?_char (hletter : char ≠ 'x' ∧ char ≠ 'u') (hline : [char] ∉ lineEnds)
    (hescape : escapeUnits? (char :: text) = some (units, count)) :
    units = codeUnits ((letterEscapes.lookup char).getD char).toNat ∧ count = 1 := by
  rcases escapeUnits?_cases hletter hescape with
    ⟨_, rfl, -, -, -⟩ | ⟨hend, -, -⟩ | ⟨-, -, hunits, hcount⟩
  · exact absurd (by decide) hline
  · exact absurd hend hline
  · exact ⟨hunits, hcount⟩

theorem insideUnits?_escape (hletter : char ≠ 'x' ∧ char ≠ 'u') (hline : [char] ∉ lineEnds)
    (hunits : insideUnits? quote ('\\' :: char :: rest) = some units) :
    ∃ others, insideUnits? quote rest = some others ∧
      units = codeUnits ((letterEscapes.lookup char).getD char).toNat ++ others := by
  obtain ⟨first, count, others, helement, hothers, rfl⟩ := insideUnits?_cons_eq_some_iff.mp hunits
  rw [elementUnits?, if_pos rfl] at helement
  obtain ⟨rfl, rfl⟩ := escapeUnits?_char hletter hline helement
  exact ⟨others, hothers, rfl⟩

/-- A code point that is written in one of its forms stands for the code units of the character. -/
theorem insideUnits?_code {letter : Char} {payload : List Char}
    (hcode : WritesCode letter payload char) :
    insideUnits? quote ('\\' :: letter :: (payload ++ rest)) =
      (insideUnits? quote rest).map (codeUnits char.toNat ++ ·) := by
  cases hcode with
  | byte hdigits =>
      have hescape : escapeUnits? ('x' :: (payload ++ rest)) = some (codeUnits char.toNat, 3) := by
        rw [escapeUnits?, hex?_append hdigits, hdigits.codeUnits_eq (by decide)]
        rfl
      rw [insideUnits?_cons_of_eq ((if_pos rfl).trans hescape), List.drop_succ_cons,
        List.drop_left' hdigits.1]
  | unit hdigits =>
      have hescape := escapeUnits?_unit hdigits rest
      rw [← hdigits.codeUnits_eq (by decide)] at hescape
      rw [insideUnits?_cons_of_eq ((if_pos rfl).trans hescape), List.drop_succ_cons,
        List.drop_left' hdigits.1]
  | @pair front back high low _ hfront hback hhigh hlow hcode =>
      -- Here the halves are two elements, which are read one after the other.
      have hunits : codeUnits char.toNat = [high, low] := by
        have hlarge : ¬ char.toNat < 0x10000 := by omega
        have hfirst : 0xd800 + (char.toNat - 0x10000) / 0x400 = high := by omega
        have hsecond : 0xdc00 + (char.toNat - 0x10000) % 0x400 = low := by omega
        rw [codeUnits, if_neg hlarge, hfirst, hsecond]
      have hfirst := escapeUnits?_unit hfront ('\\' :: 'u' :: (back ++ rest))
      have hsecond := escapeUnits?_unit hback rest
      rw [List.append_assoc, List.cons_append, List.cons_append,
        insideUnits?_cons_of_eq ((if_pos rfl).trans hfirst), List.drop_succ_cons,
        List.drop_left' hfront.1, insideUnits?_cons_of_eq ((if_pos rfl).trans hsecond),
        List.drop_succ_cons, List.drop_left' hback.1, hunits, Option.map_map]
      rfl
  | @braced count digits _ hcount hdigits =>
      have hvalid : char.toNat ≤ 0x10ffff := by
        have hchar : char.toNat.isValidChar := char.valid
        simp only [Nat.isValidChar] at hchar
        omega
      have hescape := escapeUnits?_braced hdigits hvalid rest
      rw [List.cons_append, List.append_assoc, List.singleton_append,
        insideUnits?_cons_of_eq ((if_pos rfl).trans hescape), List.drop_succ_cons,
        List.drop_succ_cons, ← hdigits.1, List.drop_length_add_append]
      rfl

/-- A spelled character other than a continued line stands for the code units of the character. -/
theorem insideUnits?_spelling (hquote : quote ≠ '\x60') {spelling : List Char}
    (hspells : Spells spelling char) (hline : ∀ lineEnd ∈ lineEnds, spelling ≠ '\\' :: lineEnd)
    (hunits : insideUnits? quote (spelling ++ rest) = some units) :
    ∃ others, insideUnits? quote rest = some others ∧ units = codeUnits char.toNat ++ others := by
  cases hspells with
  | raw hchar =>
      rw [List.singleton_append, insideUnits?_cons_eq_some_iff] at hunits
      obtain ⟨first, count, others, helement, hothers, rfl⟩ := hunits
      rw [elementUnits?, if_neg hchar, bareUnits?, if_neg hquote] at helement
      split at helement
      · cases helement
      split at helement
      · cases helement
      · cases helement
        exact ⟨others, hothers, rfl⟩
  | @letter letter _ hletter =>
      have hfree : ∀ entry ∈ letterEscapes, (entry.1 ≠ 'x' ∧ entry.1 ≠ 'u') ∧
          [entry.1] ∉ lineEnds ∧ letterEscapes.lookup entry.1 = some entry.2 := by
        decide
      obtain ⟨hcode, hend, hlookup⟩ := hfree _ hletter
      have hread := insideUnits?_escape hcode hend hunits
      rwa [hlookup] at hread
  | escaped hchar =>
      simp only [List.mem_cons, List.not_mem_nil, or_false, not_or] at hchar
      have hlookup : letterEscapes.lookup char = none := by
        simp [letterEscapes, List.lookup_eq_none_iff, hchar]
      have hend : [char] ∉ lineEnds := fun hmem => hline _ hmem rfl
      have hread := insideUnits?_escape (by simp [hchar]) hend hunits
      rwa [hlookup] at hread
  | code hcode =>
      rw [List.cons_append, List.cons_append, insideUnits?_code hcode,
        Option.map_eq_some_iff] at hunits
      obtain ⟨others, hothers, rfl⟩ := hunits
      exact ⟨others, hothers, rfl⟩

end EntityModel.Literal
