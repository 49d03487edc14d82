import EntityModel.Proofs.Literal.Units

/-!
# Literals that are understood

Reading the inside of a string literal gives what it stands for exactly if it is made of spelled
characters and of lines that are continued behind a line feed (`unitsOf_unescape_eq_iff`). Whatever
else a literal may hold is read as longer than it is, so nothing makes up for it. A template literal
is not read at all, so it has to be free of escapes and of carriage returns (`unitsOf_eq_iff`).
-/

namespace EntityModel.Literal

/-- Whether the inside of a string literal is made of spelled characters and continued lines. -/
inductive IsUnderstood : List Char → Prop
  | nil : IsUnderstood []
  | spelled {spelling rest : List Char} {char : Char} (hspells : Spells spelling char)
      (hline : ∀ lineEnd ∈ lineEnds, spelling ≠ '\\' :: lineEnd) (hrest : IsUnderstood rest) :
      IsUnderstood (spelling ++ rest)
  | continued {rest : List Char} (hrest : IsUnderstood rest) : IsUnderstood ('\\' :: '\n' :: rest)

/-- How the inside of a string literal starts, and what it stands for: with something that is
understood, or with something that is read as longer than it is. -/
inductive Starts (quote : Char) : (text : List Char) → (units : List Nat) → Prop
  | spelled {spelling rest : List Char} {char : Char} {others : List Nat}
      (hspells : Spells spelling char) (hline : ∀ lineEnd ∈ lineEnds, spelling ≠ '\\' :: lineEnd)
      (hrest : insideUnits? quote rest = some others) :
      Starts quote (spelling ++ rest) (codeUnits char.toNat ++ others)
  | continued {rest : List Char} {others : List Nat}
      (hrest : insideUnits? quote rest = some others) : Starts quote ('\\' :: '\n' :: rest) others
  | misread {front rest written : List Char} {first others : List Nat} (hfront : front ≠ [])
      (hread : unescape (front ++ rest) = written ++ unescape rest)
      (hlength : first.length < written.length)
      (hrest : insideUnits? quote rest = some others) :
      Starts quote (front ++ rest) (first ++ others)

variable {quote letter : Char} {text rest : List Char} {units : List Nat} {count : Nat}

theorem Spells.ne_nil {spelling : List Char} {char : Char} (hspells : Spells spelling char) :
    spelling ≠ [] := by
  cases hspells <;> exact List.cons_ne_nil _ _

theorem IsCode.ne_nil {payload : List Char} (hcode : IsCode letter payload) : payload ≠ [] := by
  cases hcode with
  | byte hdigits => exact hdigits.2.ne_nil
  | unit hdigits => exact hdigits.2.ne_nil
  | braced _ => exact List.cons_ne_nil _ _

/-- What stands for code units behind a backslash and a letter is a code point. -/
theorem exists_isCode_of_escapeUnits? (hletter : letter = 'x' ∨ letter = 'u')
    (hescape : escapeUnits? (letter :: text) = some (units, count)) :
    ∃ payload rest, text = payload ++ rest ∧ IsCode letter payload ∧ count = payload.length + 1 ∧
      units.length ≤ 2 := by
  rcases hletter with rfl | rfl
  · obtain ⟨code, hread, heq⟩ := Option.map_eq_some_iff.mp hescape
    obtain ⟨digits, rest, rfl, hdigits⟩ := hex?_eq_some_iff.mp hread
    cases heq
    exact ⟨digits, rest, rfl, .byte hdigits, by rw [hdigits.1], by simp⟩
  · by_cases hhead : text.head? = some '\x7b'
    · obtain ⟨text, rfl⟩ := List.head?_eq_some_iff.mp hhead
      simp only [escapeUnits?] at hescape
      split at hescape
      next code hread =>
        obtain ⟨hbrace, heq⟩ := Option.ite_none_right_eq_some.mp hescape
        obtain ⟨rest, htext⟩ := exists_eq_append_brace hbrace.1
        cases heq
        refine ⟨_, rest, ?_, .braced ⟨rfl, Numeral.ofDigits?_eq_some_iff.mp hread⟩, by simp,
          (length_codeUnits code).2⟩
        rw [List.cons_append, List.append_assoc, List.singleton_append, ← htext]
      next => cases hescape
    · rw [escapeUnits?_of_head? hhead] at hescape
      obtain ⟨code, hread, heq⟩ := Option.map_eq_some_iff.mp hescape
      obtain ⟨digits, rest, rfl, hdigits⟩ := hex?_eq_some_iff.mp hread
      cases heq
      exact ⟨digits, rest, rfl, .unit hdigits, by rw [hdigits.1], by simp⟩

/-- A malformed code point is read as longer than it is. -/
theorem starts_of_malformed (hletter : letter = 'x' ∨ letter = 'u')
    (hcode : codeEscape? text 0 letter = some none)
    (hunits : insideUnits? quote ('\\' :: letter :: text) = some units) :
    Starts quote ('\\' :: letter :: text) units := by
  obtain ⟨first, count, others, helement, hothers, rfl⟩ := insideUnits?_cons_eq_some_iff.mp hunits
  rw [elementUnits?, if_pos rfl] at helement
  obtain ⟨payload, rest, rfl, hpayload, rfl, hlength⟩ :=
    exists_isCode_of_escapeUnits? hletter helement
  rw [List.drop_succ_cons, List.drop_left] at hothers
  have hread : unescape ('\\' :: letter :: payload ++ rest) =
      ('\\' :: letter :: payload) ++ unescape rest := by
    rw [List.cons_append, List.cons_append, unescape_of_malformed hletter hcode,
      unescape_append_of_bare fun _ hmem => hpayload.ne_backslash hmem]
    rfl
  have hpos := List.length_pos_iff.mpr hpayload.ne_nil
  exact .misread (List.cons_ne_nil _ _) hread (by simp only [List.length_cons]; omega) hothers

theorem escapeUnits?_lineEnd {lineEnd : List Char} (hlineEnd : lineEnd ∈ lineEnds)
    (hwhole : lineEnd = ['\r'] → rest.head? ≠ some '\n') :
    escapeUnits? (lineEnd ++ rest) = some ([], lineEnd.length) := by
  simp only [lineEnds, List.mem_cons, List.not_mem_nil, or_false] at hlineEnd
  rcases hlineEnd with rfl | rfl | rfl | rfl | rfl
  case inr.inr.inl =>
    rw [List.singleton_append, escapeUnits?]
    · rfl
    · simp
    · simp
    · simp
    · rintro others - rfl
      exact hwhole rfl rfl
  all_goals rfl

/-- A line ends with a carriage return and a line feed if both are there. -/
theorem exists_lineEnd (hletter : [letter] ∈ lineEnds) (text : List Char) :
    ∃ lineEnd rest, letter :: text = lineEnd ++ rest ∧ lineEnd ∈ lineEnds ∧
      (lineEnd = ['\r'] → rest.head? ≠ some '\n') := by
  by_cases hboth : letter = '\r' ∧ text.head? = some '\n'
  · obtain ⟨rfl, hhead⟩ := hboth
    obtain ⟨rest, rfl⟩ := List.head?_eq_some_iff.mp hhead
    exact ⟨['\r', '\n'], rest, rfl, by decide, nofun⟩
  · refine ⟨[letter], text, rfl, hletter, fun heq hhead => hboth ⟨?_, hhead⟩⟩
    exact List.singleton_injective heq

/-- A continued line is understood if it ends with a line feed alone. -/
theorem starts_of_lineEnd {lineEnd : List Char} (hlineEnd : lineEnd ∈ lineEnds)
    (hwhole : lineEnd = ['\r'] → rest.head? ≠ some '\n')
    (hunits : insideUnits? quote ('\\' :: (lineEnd ++ rest)) = some units) :
    Starts quote ('\\' :: (lineEnd ++ rest)) units := by
  obtain ⟨first, count, others, helement, hothers, rfl⟩ := insideUnits?_cons_eq_some_iff.mp hunits
  rw [elementUnits?, if_pos rfl, escapeUnits?_lineEnd hlineEnd hwhole] at helement
  cases helement
  rw [List.drop_left] at hothers
  have hread := unescape_continued_append hlineEnd rest
  split at hread
  next hfeed =>
    subst hfeed
    exact .continued hothers
  next =>
    have hpos : ∀ chars ∈ lineEnds, 0 < chars.length := by decide
    exact .misread (List.cons_ne_nil _ _) hread (hpos lineEnd hlineEnd) hothers

theorem ne_lineEnd_of_code {payload lineEnd : List Char} (hletter : letter = 'x' ∨ letter = 'u')
    (hlineEnd : lineEnd ∈ lineEnds) : '\\' :: letter :: payload ≠ '\\' :: lineEnd := by
  have hfree : ∀ lineEnd ∈ lineEnds, lineEnd.head? ≠ some 'x' ∧ lineEnd.head? ≠ some 'u' := by
    decide
  intro heq
  obtain ⟨-, rfl⟩ := List.cons.inj heq
  rcases hletter with rfl | rfl
  · exact (hfree _ hlineEnd).1 rfl
  · exact (hfree _ hlineEnd).2 rfl

/-- A letter behind a backslash spells something unless it writes a code point or ends a line. -/
theorem exists_spells_letter (hletter : ¬ (letter = 'x' ∨ letter = 'u'))
    (hline : [letter] ∉ lineEnds) : ∃ char, Spells ['\\', letter] char := by
  by_cases hkey : ∃ char, (letter, char) ∈ letterEscapes
  · obtain ⟨char, hkey⟩ := hkey
    exact ⟨char, .letter hkey⟩
  · have hfeed : letter ≠ '\n' := by
      rintro rfl
      exact hline (by decide)
    have hplain : ∀ key ∈ ['n', 't', 'r', 'b', 'f', 'v', '0'], letter ≠ key := by
      intro key hmem heq
      have hspelled : ∃ char, (key, char) ∈ letterEscapes := by
        simp only [letterEscapes, List.mem_cons, Prod.mk.injEq, List.not_mem_nil,
          or_false] at hmem ⊢
        rcases hmem with rfl | rfl | rfl | rfl | rfl | rfl | rfl <;> simp
      exact hkey (heq ▸ hspelled)
    simp only [List.mem_cons, List.not_mem_nil, or_false, forall_eq_or_imp, forall_eq] at hplain
    rw [not_or] at hletter
    exact ⟨letter, .escaped (by simp [hplain, hletter, hfeed])⟩

/-- The inside of a string literal starts in one of these ways. -/
theorem starts_of_insideUnits? (hquote : quote ≠ '\x60') (htext : text ≠ [])
    (hunits : insideUnits? quote text = some units) : Starts quote text units := by
  obtain ⟨char, text, rfl⟩ := List.exists_cons_of_ne_nil htext
  have hspelled : ∀ {spelling rest : List Char} {spelled : Char}, Spells spelling spelled →
      (∀ lineEnd ∈ lineEnds, spelling ≠ '\\' :: lineEnd) →
      insideUnits? quote (spelling ++ rest) = some units →
        Starts quote (spelling ++ rest) units := by
    intro spelling rest spelled hspells hline hread
    obtain ⟨others, hothers, rfl⟩ := insideUnits?_spelling hquote hspells hline hread
    exact .spelled hspells hline hothers
  by_cases hchar : char = '\\'
  · subst hchar
    cases text with
    | nil =>
        obtain ⟨_, _, _, helement, -⟩ := insideUnits?_cons_eq_some_iff.mp hunits
        cases helement
    | cons letter text =>
        by_cases hletter : letter = 'x' ∨ letter = 'u'
        · obtain ⟨read, hread⟩ := exists_codeEscape? text 0 letter
          cases read with
          | none => exact starts_of_malformed hletter hread hunits
          | some read =>
              obtain ⟨payload, rest, rfl, _, hcode⟩ := (codeEscape?_eq_some_iff hletter).mp hread
              exact hspelled (.code hcode) (fun _ hmem => ne_lineEnd_of_code hletter hmem) hunits
        · by_cases hline : [letter] ∈ lineEnds
          · obtain ⟨lineEnd, rest, htext, hlineEnd, hwhole⟩ := exists_lineEnd hline text
            rw [htext] at hunits ⊢
            exact starts_of_lineEnd hlineEnd hwhole hunits
          · obtain ⟨spelled, hspells⟩ := exists_spells_letter hletter hline
            refine hspelled hspells ?_ hunits
            rintro _ hmem ⟨⟩
            exact hline hmem
  · exact hspelled (.raw hchar) (by rintro _ _ ⟨⟩; exact hchar rfl) hunits

/-- What is read is never shorter than what stands there, and as long only if all is understood. -/
theorem isUnderstood_of_insideUnits? (hquote : quote ≠ '\x60')
    (hunits : insideUnits? quote text = some units) :
    units.length ≤ (unitsOf (unescape text)).length ∧
      (unitsOf (unescape text) = units → IsUnderstood text) := by
  induction hsize : text.length using Nat.strongRecOn generalizing text units with
  | _ size ih =>
  subst hsize
  by_cases htext : text = []
  · subst htext
    rw [insideUnits?_nil] at hunits
    cases hunits
    exact ⟨Nat.zero_le _, fun _ => .nil⟩
  · cases starts_of_insideUnits? hquote htext hunits with
    | @spelled spelling rest char others hspells hline hrest =>
        have hshorter := List.length_pos_iff.mpr hspells.ne_nil
        obtain ⟨hlength, hunderstood⟩ := ih rest.length (by simp [hshorter]) hrest rfl
        rw [unescape_append_of_spells hspells, unitsOf_cons, List.length_append, List.length_append]
        exact ⟨Nat.add_le_add_left hlength _, fun heq =>
          .spelled hspells hline (hunderstood (List.append_cancel_left heq))⟩
    | @continued rest others hrest =>
        have hshorter : rest.length < ('\\' :: '\n' :: rest).length := by
          simp only [List.length_cons]
          omega
        obtain ⟨hlength, hunderstood⟩ := ih rest.length hshorter hrest rfl
        rw [unescape_continued]
        exact ⟨hlength, fun heq => .continued (hunderstood heq)⟩
    | @misread front rest written first others hfront hread hlonger hrest =>
        -- What is misread comes out longer, and nothing behind it comes out shorter.
        have hshorter := List.length_pos_iff.mpr hfront
        obtain ⟨hlength, -⟩ := ih rest.length (by simp [hshorter]) hrest rfl
        have hwritten := length_le_length_unitsOf written
        have hlt : (first ++ others).length < (unitsOf (unescape (front ++ rest))).length := by
          rw [hread, unitsOf_append, List.length_append, List.length_append]
          omega
        exact ⟨Nat.le_of_lt hlt, fun heq => absurd (congrArg List.length heq) (Nat.ne_of_gt hlt)⟩

theorem IsUnderstood.unitsOf_unescape (hunderstood : IsUnderstood text) (hquote : quote ≠ '\x60')
    (hunits : insideUnits? quote text = some units) : unitsOf (unescape text) = units := by
  induction hunderstood generalizing units with
  | nil =>
      rw [insideUnits?_nil] at hunits
      cases hunits
      rw [unescape_nil, unitsOf_nil]
  | spelled hspells hline _ ih =>
      obtain ⟨others, hothers, rfl⟩ := insideUnits?_spelling hquote hspells hline hunits
      rw [unescape_append_of_spells hspells, unitsOf_cons, ih hothers]
  | continued _ ih =>
      obtain ⟨first, count, others, helement, hothers, rfl⟩ :=
        insideUnits?_cons_eq_some_iff.mp hunits
      cases helement
      rw [unescape_continued, ih hothers, List.nil_append]

theorem unitsOf_unescape_eq_iff (hquote : quote ≠ '\x60')
    (hunits : insideUnits? quote text = some units) :
    unitsOf (unescape text) = units ↔ IsUnderstood text :=
  ⟨(isUnderstood_of_insideUnits? hquote hunits).2, fun h => h.unitsOf_unescape hquote hunits⟩

/-! ## Templates -/

theorem length_letterEscape_le (char : Char) :
    (codeUnits ((letterEscapes.lookup char).getD char).toNat).length ≤
      (codeUnits char.toNat).length := by
  cases hlookup : letterEscapes.lookup char with
  | none => exact Nat.le_refl _
  | some spelled =>
      have hone : ∀ entry ∈ letterEscapes, (codeUnits entry.2.toNat).length = 1 := by decide
      obtain ⟨before, after, heq, -⟩ := List.lookup_eq_some_iff.mp hlookup
      have hmem : (char, spelled) ∈ letterEscapes := by simp [heq]
      exact (hone _ hmem).symm ▸ (length_codeUnits char.toNat).1

/-- What is behind a backslash never stands for more than is written there. -/
theorem length_le_of_escapeUnits? (hescape : escapeUnits? text = some (units, count)) :
    units.length ≤ (unitsOf (text.take count)).length := by
  have hcode : ∀ {letter : Char} {text : List Char}, letter = 'x' ∨ letter = 'u' →
      escapeUnits? (letter :: text) = some (units, count) →
      units.length ≤ (unitsOf ((letter :: text).take count)).length := by
    intro letter text hletter hescape
    obtain ⟨payload, rest, rfl, hpayload, rfl, hlength⟩ :=
      exists_isCode_of_escapeUnits? hletter hescape
    have hwritten := length_le_length_unitsOf (letter :: payload)
    have hpos := List.length_pos_iff.mpr hpayload.ne_nil
    rw [List.take_succ_cons, List.take_left]
    rw [List.length_cons] at hwritten
    omega
  cases text with
  | nil => cases hescape
  | cons letter text =>
      by_cases hletter : letter = 'x' ∨ letter = 'u'
      · exact hcode hletter hescape
      · by_cases hline : [letter] ∈ lineEnds
        · obtain ⟨lineEnd, rest, htext, hlineEnd, hwhole⟩ := exists_lineEnd hline text
          rw [htext, escapeUnits?_lineEnd hlineEnd hwhole] at hescape
          cases hescape
          exact Nat.zero_le _
        · obtain ⟨rfl, rfl⟩ := escapeUnits?_char (not_or.mp hletter) hline hescape
          simpa using length_letterEscape_le letter

/-- What a template starts with never stands for more than is written there, and for the same only
if it is no escape. -/
theorem bare_of_elementUnits? {char : Char}
    (helement : elementUnits? '\x60' char text = some (units, count)) :
    units.length ≤ (unitsOf (char :: text.take count)).length ∧
      (unitsOf (char :: text.take count) = units → char ≠ '\\' ∧ char ≠ '\r' ∧ count = 0) := by
  rw [elementUnits?] at helement
  split at helement
  next hchar =>
    have hwritten := length_le_of_escapeUnits? helement
    have hpos := (length_codeUnits char.toNat).1
    have hlt : units.length < (unitsOf (char :: text.take count)).length := by
      rw [unitsOf_cons, List.length_append]
      omega
    exact ⟨Nat.le_of_lt hlt, fun heq => absurd (congrArg List.length heq) (Nat.ne_of_gt hlt)⟩
  next hchar =>
    rw [bareUnits?, if_pos rfl] at helement
    split at helement
    next => cases helement
    next =>
    split at helement
    next => cases helement
    next =>
    split at helement
    next hreturn =>
      cases helement
      subst hreturn
      have hpos := length_le_length_unitsOf ('\r' ::
        text.take (if text.head? = some '\n' then 1 else 0))
      refine ⟨Nat.le_trans (by simp) hpos, fun heq => ?_⟩
      rw [unitsOf_cons] at heq
      exact absurd (List.cons.inj heq).1 (by decide)
    next hreturn =>
      cases helement
      exact ⟨by simp, fun _ => ⟨hchar, hreturn, rfl⟩⟩

/-- What a template stands for is never longer than the template, and the same only if it holds no
escapes. -/
theorem bare_of_insideUnits? (hunits : insideUnits? '\x60' text = some units) :
    units.length ≤ (unitsOf text).length ∧
      (unitsOf text = units → '\\' ∉ text ∧ '\r' ∉ text) := by
  induction hsize : text.length using Nat.strongRecOn generalizing text units with
  | _ size ih =>
  subst hsize
  cases text with
  | nil =>
      rw [insideUnits?_nil] at hunits
      cases hunits
      simp
  | cons char text =>
      obtain ⟨first, count, others, helement, hothers, rfl⟩ :=
        insideUnits?_cons_eq_some_iff.mp hunits
      have hshorter : (text.drop count).length < (char :: text).length := by
        simp only [List.length_cons, List.length_drop]
        omega
      obtain ⟨hlength, hbare⟩ := ih _ hshorter hothers rfl
      obtain ⟨hfirst, hplain⟩ := bare_of_elementUnits? helement
      have hsplit : unitsOf (char :: text) =
          unitsOf (char :: text.take count) ++ unitsOf (text.drop count) := by
        rw [← unitsOf_append, List.cons_append, List.take_append_drop]
      rw [hsplit]
      -- Neither part stands for more than is written, so equal wholes have equal parts.
      refine ⟨by simp only [List.length_append]; omega, fun heq => ?_⟩
      have hlengths := congrArg List.length heq
      simp only [List.length_append] at hlengths
      obtain ⟨heqFirst, heqOthers⟩ := List.append_inj heq (by omega)
      obtain ⟨hback, hcarriage, rfl⟩ := hplain heqFirst
      obtain ⟨hbackRest, hcarriageRest⟩ := hbare heqOthers
      simp only [List.drop_zero] at hbackRest hcarriageRest
      simp [hbackRest, hcarriageRest, Ne.symm hback, Ne.symm hcarriage]

theorem unitsOf_of_bare (hbare : '\\' ∉ text ∧ '\r' ∉ text)
    (hunits : insideUnits? '\x60' text = some units) : unitsOf text = units := by
  induction text generalizing units with
  | nil =>
      rw [insideUnits?_nil] at hunits
      cases hunits
      rfl
  | cons char text ih =>
      simp only [List.mem_cons, not_or] at hbare
      obtain ⟨⟨hback, hbackRest⟩, hcarriage, hcarriageRest⟩ := hbare
      obtain ⟨first, count, others, helement, hothers, rfl⟩ :=
        insideUnits?_cons_eq_some_iff.mp hunits
      rw [elementUnits?, if_neg (Ne.symm hback), bareUnits?, if_pos rfl,
        if_neg (Ne.symm hcarriage)] at helement
      split at helement
      next => cases helement
      next =>
      split at helement
      next => cases helement
      next =>
        cases helement
        rw [unitsOf_cons, ih ⟨hbackRest, hcarriageRest⟩ hothers]

theorem unitsOf_eq_iff (hunits : insideUnits? '\x60' text = some units) :
    unitsOf text = units ↔ '\\' ∉ text ∧ '\r' ∉ text :=
  ⟨(bare_of_insideUnits? hunits).2, fun hbare => unitsOf_of_bare hbare hunits⟩

end EntityModel.Literal
