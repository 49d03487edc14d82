import EntityModel.Proofs.Literal.Spelling

/-!
# Continued lines

A backslash at the end of a line continues a string literal on the next line, and neither of the two
should count for the value. A line can end in five ways (`lineEnds`), but only a line feed is
dropped: any other line end stays in the value. A continued line also keeps apart the halves of a
surrogate pair, which stand for a character only side by side. Everywhere else a backslash with a
line feed vanishes (`continuationVanishes_iff`).
-/

namespace EntityModel.Literal

/-- The ways to end a line of a source text. -/
def lineEnds : List (List Char) := [['\n'], ['\r', '\n'], ['\r'], ['\u2028'], ['\u2029']]

/-- Whether a text is a code point as written behind a backslash and a letter: two digits, four, or
any number of them between braces. It need not be the code point of a character. -/
inductive IsCode : (letter : Char) → (payload : List Char) → Prop
  | byte {digits : List Char} {code : Nat} (hdigits : IsHex 2 digits code) : IsCode 'x' digits
  | unit {digits : List Char} {code : Nat} (hdigits : IsHex 4 digits code) : IsCode 'u' digits
  | braced {count code : Nat} {digits : List Char} (hdigits : IsHex count digits code) :
      IsCode 'u' ('\x7b' :: (digits ++ ['\x7d']))

/-- Whether a text is a complete element of a string literal. An octal code point is an escaped
digit with bare ones behind it, and a continued line may be an escaped carriage return with a bare
line feed. -/
inductive IsElement : List Char → Prop
  | bare {char : Char} (hchar : char ≠ '\\') : IsElement [char]
  | escaped {char : Char} (hchar : char ≠ 'x' ∧ char ≠ 'u') : IsElement ['\\', char]
  | code {letter : Char} {payload : List Char} (hcode : IsCode letter payload) :
      IsElement ('\\' :: letter :: payload)

/-- Whether a text is one half of a surrogate pair. -/
def IsHalf (low high : Nat) (text : List Char) : Prop :=
  ∃ digits unit, text = '\\' :: 'u' :: digits ∧ IsHex 4 digits unit ∧ low ≤ unit ∧
    unit < high

def IsHighHalf : List Char → Prop := IsHalf 0xd800 0xdc00

def IsLowHalf : List Char → Prop := IsHalf 0xdc00 0xe000

/-- Whether a text starts with the second half of a surrogate pair. -/
def StartsLow (text : List Char) : Prop := ∃ low rest, text = low ++ rest ∧ IsLowHalf low

/-- Whether the halves of a surrogate pair stand on both sides of a place. -/
def SplitsPair (elements : List (List Char)) (back : List Char) : Prop :=
  (∃ high ∈ elements.getLast?, IsHighHalf high) ∧ StartsLow back

/-- Whether a string literal has the same value with a continued line between two of its parts as
without. -/
def ContinuationVanishes (elements : List (List Char)) (lineEnd back : List Char) : Prop :=
  unescape (elements.flatten ++ '\\' :: (lineEnd ++ back)) = unescape (elements.flatten ++ back)

variable {elements : List (List Char)} {element low high lineEnd back : List Char}

/-! ## One element -/

theorem IsHex.unique {count first second : Nat} {digits : List Char}
    (hfirst : IsHex count digits first) (hsecond : IsHex count digits second) : first = second := by
  have hread := Numeral.ofDigits?_eq_some_iff.mpr hfirst.2
  rw [Numeral.ofDigits?_eq_some_iff.mpr hsecond.2] at hread
  exact (Option.some.inj hread).symm

theorem IsHex.ne_backslash {count code : Nat} {digits : List Char}
    (hdigits : IsHex count digits code) {digit : Char} (hmem : digit ∈ digits) : digit ≠ '\\' := by
  obtain ⟨value, hdigit⟩ := exists_isDigit_of_mem hdigits.2 hmem
  rw [← Numeral.digitValue?_eq_some_iff] at hdigit
  rintro rfl
  cases hdigit

theorem IsCode.letter_eq {letter : Char} {payload : List Char} (hcode : IsCode letter payload) :
    letter = 'x' ∨ letter = 'u' := by
  cases hcode <;> simp

theorem IsCode.ne_backslash {letter : Char} {payload : List Char} (hcode : IsCode letter payload)
    {char : Char} (hmem : char ∈ payload) : char ≠ '\\' := by
  cases hcode with
  | byte hdigits => exact hdigits.ne_backslash hmem
  | unit hdigits => exact hdigits.ne_backslash hmem
  | braced hdigits =>
      simp only [List.mem_cons, List.mem_append, List.not_mem_nil, or_false] at hmem
      rcases hmem with rfl | hmem | rfl
      · decide
      · exact hdigits.ne_backslash hmem
      · decide

theorem eq_of_prefix_append {first second rest : List Char} (hbegins : first <+: second ++ rest)
    (hlength : first.length = second.length) : first = second :=
  (List.prefix_of_prefix_length_le hbegins (List.prefix_append second rest)
    (Nat.le_of_eq hlength)).eq_of_length hlength

theorem head?_append_ne {front : List Char} {char : Char} (hne : front ≠ [])
    (hhead : front.head? ≠ some char) (back : List Char) : (front ++ back).head? ≠ some char := by
  rwa [List.head?_append_of_ne_nil front hne]

/-- Digits up to a closing brace are those of any other text in front of one. -/
theorem eq_of_braced_prefix {count code : Nat} {first second rest : List Char}
    (hfirst : IsHex count first code) {others other : Nat} (hsecond : IsHex others second other)
    (hbegins : first ++ ['\x7d'] <+: second ++ '\x7d' :: rest) : first = second := by
  obtain ⟨behind, heq⟩ := hbegins
  rw [List.append_assoc, List.singleton_append] at heq
  rw [← takeWhile_digits hfirst behind, heq, takeWhile_digits hsecond rest]

/-- What writes a character in front of a text starts with all of a code point that stands there.
Only the first half of a pair goes on behind it. -/
theorem WritesCode.eq_or_splits {letter char : Char} {payload written : List Char}
    (hcode : IsCode letter payload) (hwritten : WritesCode letter written char)
    (hbegins : written <+: payload ++ back) : written = payload ∨
      IsHighHalf ('\\' :: letter :: payload) ∧ StartsLow back := by
  cases hcode with
  | byte hdigits =>
      cases hwritten with
      | byte hbyte => exact Or.inl (eq_of_prefix_append hbegins (hbyte.1.trans hdigits.1.symm))
  | @unit digits code hdigits =>
      cases hwritten with
      | unit hunit => exact Or.inl (eq_of_prefix_append hbegins (hunit.1.trans hdigits.1.symm))
      | @pair front tail high low _ hfront htail hhigh hlow _ =>
          obtain ⟨rest, heq⟩ := hbegins
          rw [List.append_assoc] at heq
          obtain ⟨rfl, rfl⟩ := List.append_inj heq (hfront.1.trans hdigits.1.symm)
          exact Or.inr ⟨⟨front, high, rfl, hfront, hhigh⟩,
            '\\' :: 'u' :: tail, rest, rfl, tail, low, rfl, htail, hlow⟩
      | braced _ _ =>
          have hhead := head?_append_ne hdigits.2.ne_nil hdigits.head?_ne back
          obtain ⟨rest, heq⟩ := hbegins
          rw [← heq] at hhead
          exact absurd rfl hhead
  | @braced count code digits hdigits =>
      obtain ⟨hne, hfree | ⟨others, rfl, _, hvalue⟩⟩ := hwritten.cases_head?
      · obtain ⟨rest, heq⟩ := hbegins
        have hhead := head?_append_ne hne hfree rest
        rw [heq] at hhead
        exact absurd rfl hhead
      · rw [List.cons_append, List.cons_prefix_cons, List.append_assoc] at hbegins
        obtain rfl := eq_of_braced_prefix ⟨rfl, hvalue⟩ hdigits hbegins.2
        exact Or.inl rfl

theorem not_startsLow_nil : ¬ StartsLow [] := by
  rintro ⟨low, rest, hnil, digits, unit, rfl, _⟩
  cases hnil

/-- A code point is read without regard to what stands behind it, unless that is the other half of
a pair. -/
theorem unescape_code_append {letter : Char} {payload : List Char} (hcode : IsCode letter payload)
    (hapart : ¬ (IsHighHalf ('\\' :: letter :: payload) ∧ StartsLow back)) :
    unescape ('\\' :: letter :: (payload ++ back)) =
      unescape ('\\' :: letter :: payload) ++ unescape back := by
  by_cases hwritten : ∃ char, WritesCode letter payload char
  · obtain ⟨char, hwritten⟩ := hwritten
    have hread := unescape_append_of_spells (.code hwritten)
    have halone := hread []
    rw [List.append_nil, unescape_nil] at halone
    rw [halone]
    exact hread back
  · -- Such a code point is malformed, with and without what stands behind it.
    have hmalformed : ∀ rest, ¬ (IsHighHalf ('\\' :: letter :: payload) ∧ StartsLow rest) →
        unescape ('\\' :: letter :: (payload ++ rest)) =
          '\\' :: letter :: (payload ++ unescape rest) := by
      intro rest hrest
      have hnone : codeEscape? (payload ++ rest) 0 letter = some none := by
        rw [codeEscape?_eq_none_iff hcode.letter_eq]
        intro written char hchar hbegins
        rcases hchar.eq_or_splits hcode hbegins with rfl | hsplits
        · exact hwritten ⟨char, hchar⟩
        · exact hrest hsplits
      rw [unescape_of_malformed hcode.letter_eq hnone,
        unescape_append_of_bare fun _ hmem => hcode.ne_backslash hmem]
    have halone := hmalformed [] fun hsplits => not_startsLow_nil hsplits.2
    rw [List.append_nil, unescape_nil, List.append_nil] at halone
    rw [hmalformed back hapart, halone, List.cons_append, List.cons_append]

/-- The text of an element starts a text that starts with the second half of a pair only if it is
that half. -/
theorem IsElement.startsLow_append_iff (helement : IsElement element) :
    StartsLow (element ++ back) ↔ IsLowHalf element := by
  constructor
  · rintro ⟨low, rest, heq, digits, unit, rfl, hdigits, hrange⟩
    cases helement with
    | bare hchar => exact absurd (List.cons.inj heq).1 hchar
    | escaped hchar => exact absurd (List.cons.inj (List.cons.inj heq).2).1 hchar.2
    | @code letter payload hcode =>
        simp only [List.cons_append, List.cons.injEq, true_and] at heq
        obtain ⟨rfl, heq⟩ := heq
        cases hcode with
        | @unit others _ hothers =>
            obtain ⟨rfl, -⟩ := List.append_inj heq (hothers.1.trans hdigits.1.symm)
            exact ⟨_, unit, rfl, hdigits, hrange⟩
        | braced _ =>
            have hhead := head?_append_ne hdigits.2.ne_nil hdigits.head?_ne rest
            rw [← heq] at hhead
            exact absurd rfl hhead
  · exact fun hlow => ⟨element, back, rfl, hlow⟩

theorem IsHalf.isElement {first last : Nat} (hhalf : IsHalf first last element) :
    IsElement element := by
  obtain ⟨digits, unit, rfl, hdigits, -⟩ := hhalf
  exact .code (.unit hdigits)

theorem IsHighHalf.not_isLowHalf (hhigh : IsHighHalf high) : ¬ IsLowHalf high := by
  obtain ⟨digits, unit, rfl, hdigits, _, hunit⟩ := hhigh
  rintro ⟨others, other, heq, hothers, hother, _⟩
  simp only [List.cons.injEq, true_and] at heq
  subst heq
  have hsame := hdigits.unique hothers
  omega

/-- An element is read without regard to what stands behind it, unless they are the halves of a
pair. -/
theorem unescape_element_append (helement : IsElement element)
    (hapart : ¬ (IsHighHalf element ∧ StartsLow back)) :
    unescape (element ++ back) = unescape element ++ unescape back := by
  cases helement with
  | bare hchar =>
      rw [List.singleton_append, unescape_cons_of_ne hchar, unescape_cons_of_ne hchar, unescape_nil]
      rfl
  | @escaped char hchar =>
      by_cases hline : char = '\n'
      · subst hline
        have hempty : unescape ['\\', '\n'] = [] := (unescape_continued []).trans unescape_nil
        rw [hempty]
        exact unescape_continued back
      · have halone := unescape_backslash hchar.1 hchar.2 hline []
        rw [unescape_nil] at halone
        rw [halone]
        exact unescape_backslash hchar.1 hchar.2 hline back
  | code hcode => exact unescape_code_append hcode hapart

/-- The halves of a pair side by side stand for one character. -/
theorem exists_unescape_pair (hhigh : IsHighHalf high) (hlow : IsLowHalf low) :
    ∃ char, ∀ rest, unescape (high ++ (low ++ rest)) = char :: unescape rest := by
  obtain ⟨front, first, rfl, hfront, hfirst⟩ := hhigh
  obtain ⟨tail, second, rfl, htail, hsecond⟩ := hlow
  have hvalid : (0x10000 + (first - 0xd800) * 0x400 + (second - 0xdc00)).isValidChar := by
    refine Or.inr ⟨?_, ?_⟩ <;> omega
  obtain ⟨char, hcode⟩ : ∃ char : Char,
      0x10000 + (first - 0xd800) * 0x400 + (second - 0xdc00) = char.toNat :=
    ⟨_, scalar?_eq_some_iff.mp (if_pos hvalid)⟩
  refine ⟨char, fun rest => ?_⟩
  have hread := unescape_append_of_spells (.code (.pair hfront htail hfirst hsecond hcode)) rest
  rwa [List.cons_append, List.cons_append, List.append_assoc] at hread

/-! ## Elements behind one another -/

/-- The elements of a literal are read without regard to what stands behind them, unless that parts
the halves of a pair. -/
theorem unescape_flatten_append : ∀ {elements : List (List Char)} {back : List Char},
    (∀ element ∈ elements, IsElement element) → ¬ SplitsPair elements back →
    unescape (elements.flatten ++ back) = unescape elements.flatten ++ unescape back
  | [], back, _, _ => by
      rw [List.flatten_nil, List.nil_append, unescape_nil, List.nil_append]
  | [element], back, helements, hapart => by
      rw [List.flatten_singleton]
      apply unescape_element_append (helements element List.mem_cons_self)
      exact fun hsplits => hapart ⟨⟨element, rfl, hsplits.1⟩, hsplits.2⟩
  | first :: second :: elements, back, helements, hapart => by
      rw [List.forall_mem_cons] at helements
      -- The halves of a pair are read together, so two elements are taken off at once then.
      by_cases hpair : IsHighHalf first ∧ IsLowHalf second
      · obtain ⟨char, hread⟩ := exists_unescape_pair hpair.1 hpair.2
        have hothers : ¬ SplitsPair elements back := by
          rintro ⟨⟨high, hlast, hhigh⟩, hlow⟩
          exact hapart ⟨⟨high, by simp_all [List.getLast?_cons], hhigh⟩, hlow⟩
        have ih := unescape_flatten_append (List.forall_mem_cons.mp helements.2).2 hothers
        rw [List.flatten_cons, List.flatten_cons, List.append_assoc, List.append_assoc, hread,
          hread, ih, List.cons_append]
      · have hothers : ¬ SplitsPair (second :: elements) back := by
          rwa [SplitsPair, ← List.getLast?_cons_cons]
        have ih := unescape_flatten_append helements.2 hothers
        have hfirst : ∀ rest, unescape (first ++ ((second :: elements).flatten ++ rest)) =
            unescape first ++ unescape ((second :: elements).flatten ++ rest) := by
          intro rest
          apply unescape_element_append helements.1
          rw [List.flatten_cons, List.append_assoc,
            (helements.2 second List.mem_cons_self).startsLow_append_iff]
          exact hpair
        have halone := hfirst []
        rw [List.append_nil] at halone
        rw [List.flatten_cons, List.append_assoc, hfirst, ih, halone, List.append_assoc]

theorem unescape_continued_append (hlineEnd : lineEnd ∈ lineEnds) (back : List Char) :
    unescape ('\\' :: (lineEnd ++ back)) =
      (if lineEnd = ['\n'] then [] else lineEnd) ++ unescape back := by
  simp only [lineEnds, List.mem_cons, List.not_mem_nil, or_false] at hlineEnd
  rcases hlineEnd with rfl | rfl | rfl | rfl | rfl
  · exact unescape_continued back
  · have hrest := unescape_cons_of_ne (by decide : '\n' ≠ '\\') back
    exact (unescape_backslash (by decide) (by decide) (by decide) _).trans (congrArg _ hrest)
  all_goals exact unescape_backslash (by decide) (by decide) (by decide) back

theorem not_startsLow_continued (hlineEnd : lineEnd ∈ lineEnds) :
    ¬ StartsLow ('\\' :: (lineEnd ++ back)) := by
  rintro ⟨low, rest, heq, digits, unit, rfl, _⟩
  simp only [lineEnds, List.mem_cons, List.not_mem_nil, or_false] at hlineEnd
  rcases hlineEnd with rfl | rfl | rfl | rfl | rfl <;>
    simp only [List.cons_append, List.cons.injEq, true_and] at heq <;>
    exact absurd heq.1 (by decide)

/-- A half of a pair stands for something on its own. -/
theorem unescape_half_ne_nil {first last : Nat} (hhalf : IsHalf first last element) :
    unescape element ≠ [] := by
  obtain ⟨digits, unit, rfl, -⟩ := hhalf
  obtain ⟨read, hread⟩ := exists_codeEscape? digits 0 'u'
  cases read with
  | none =>
      rw [unescape_of_malformed (Or.inr rfl) hread]
      exact List.cons_ne_nil _ _
  | some read =>
      rw [unescape_of_codeEscape? (Or.inr rfl) hread]
      exact List.cons_ne_nil _ _

/-- A continued line that parts a pair leaves its halves as they are written. -/
theorem not_continuationVanishes_of_splitsPair
    (helements : ∀ element ∈ elements, IsElement element) (hlineEnd : lineEnd ∈ lineEnds)
    (hsplits : SplitsPair elements back) :
    ¬ ContinuationVanishes elements lineEnd back := by
  obtain ⟨⟨high, hlast, hhigh⟩, low, rest, rfl, hlow⟩ := hsplits
  obtain ⟨front, rfl⟩ := List.getLast?_eq_some_iff.mp hlast
  have hfront : ∀ text, unescape ((front ++ [high]).flatten ++ text) =
      unescape front.flatten ++ unescape (high ++ text) := by
    intro text
    rw [List.flatten_append, List.flatten_singleton, List.append_assoc]
    apply unescape_flatten_append fun element hmem =>
      helements element (List.mem_append_left _ hmem)
    rintro ⟨-, hstarts⟩
    exact hhigh.not_isLowHalf (hhigh.isElement.startsLow_append_iff.mp hstarts)
  obtain ⟨char, hpair⟩ := exists_unescape_pair hhigh hlow
  have hparted : unescape (high ++ '\\' :: (lineEnd ++ (low ++ rest))) = unescape high ++
      ((if lineEnd = ['\n'] then [] else lineEnd) ++ (unescape low ++ unescape rest)) := by
    rw [unescape_element_append hhigh.isElement fun h => not_startsLow_continued hlineEnd h.2,
      unescape_continued_append hlineEnd,
      unescape_element_append hlow.isElement fun h => h.1.not_isLowHalf hlow]
  intro hvanishes
  rw [ContinuationVanishes, hfront, hfront, hpair, hparted] at hvanishes
  -- Together the halves make one character, parted at least one each.
  have hlength := congrArg List.length (List.append_cancel_left hvanishes)
  have hhighPos := List.length_pos_iff.mpr (unescape_half_ne_nil hhigh)
  have hlowPos := List.length_pos_iff.mpr (unescape_half_ne_nil hlow)
  simp only [List.length_append, List.length_cons] at hlength
  omega

/-- A continued line between two elements of a string literal leaves its value alone exactly if the
line ends with a line feed alone and the continued line does not part the halves of a surrogate
pair. What stands in front of it and behind it is read on its own, and any other line end stays in
the value. -/
theorem continuationVanishes_iff (helements : ∀ element ∈ elements, IsElement element)
    (hlineEnd : lineEnd ∈ lineEnds) (back : List Char) :
    (ContinuationVanishes elements lineEnd back ↔
      lineEnd = ['\n'] ∧ ¬ SplitsPair elements back) ∧
    unescape (elements.flatten ++ '\\' :: (lineEnd ++ back)) = unescape elements.flatten ++
      ((if lineEnd = ['\n'] then [] else lineEnd) ++ unescape back) := by
  have hcontinued : unescape (elements.flatten ++ '\\' :: (lineEnd ++ back)) =
      unescape elements.flatten ++
        ((if lineEnd = ['\n'] then [] else lineEnd) ++ unescape back) := by
    rw [unescape_flatten_append helements fun h => not_startsLow_continued hlineEnd h.2,
      unescape_continued_append hlineEnd]
  refine ⟨?_, hcontinued⟩
  by_cases hsplits : SplitsPair elements back
  · exact iff_of_false (not_continuationVanishes_of_splitsPair helements hlineEnd hsplits)
      fun h => h.2 hsplits
  · rw [ContinuationVanishes, hcontinued, unescape_flatten_append helements hsplits]
    constructor
    · intro heq
      refine ⟨?_, hsplits⟩
      by_contra hother
      have hadded := List.append_left_eq_self.mp (List.append_cancel_left heq)
      rw [if_neg hother] at hadded
      subst hadded
      exact absurd hlineEnd (by decide)
    · rintro ⟨rfl, -⟩
      rfl

/-- A letter by its code and an escaped line feed, with a continued line behind them. -/
theorem continuationVanishes_lineFeed :
    let elements := [['\\', 'x', '4', '1'], ['\\', 'n']]
    (∀ element ∈ elements, IsElement element) ∧ ['\n'] ∈ lineEnds ∧
      ContinuationVanishes elements ['\n'] ['b'] := by
  intro elements
  have helements : ∀ element ∈ elements, IsElement element := by
    intro element hmem
    simp only [elements, List.mem_cons, List.not_mem_nil, or_false] at hmem
    rcases hmem with rfl | rfl
    · exact .code (.byte ⟨rfl, Numeral.ofDigits?_eq_some_iff.mp (by decide : _ = some 0x41)⟩)
    · exact .escaped (by decide)
  have hlineFeed : ['\n'] ∈ lineEnds := by decide
  refine ⟨helements, hlineFeed, (continuationVanishes_iff helements hlineFeed ['b']).1.mpr
    ⟨rfl, ?_⟩⟩
  rintro ⟨-, low, rest, heq, digits, unit, rfl, -⟩
  exact absurd (List.cons.inj heq).1 (by decide)

/-- A line that ends with a carriage return and a line feed is continued with both of them in the
value. -/
theorem not_continuationVanishes_carriageReturn :
    ¬ ContinuationVanishes [['a']] ['\r', '\n'] ['b'] := by
  have hcontinued : unescape ['a', '\\', '\r', '\n', 'b'] = ['a', '\r', '\n', 'b'] := by
    rw [unescape_cons_of_ne (by decide), unescape_backslash (by decide) (by decide) (by decide),
      unescape_cons_of_ne (by decide), unescape_cons_of_ne (by decide), unescape_nil]
    rfl
  have hplain : unescape ['a', 'b'] = ['a', 'b'] := by
    rw [unescape_cons_of_ne (by decide), unescape_cons_of_ne (by decide), unescape_nil]
  intro hvanishes
  have hsame : ['a', '\r', '\n', 'b'] = ['a', 'b'] := hcontinued.symm.trans (hvanishes.trans hplain)
  exact absurd hsame (by decide)

end EntityModel.Literal
