import Mathlib.Data.List.Forall2
import EntityModel.Proofs.Json.Reader

/-!
# Documents read back

What brackets are written around reads back if each of its parts does. So every document without
infinite numbers reads back from its text.
-/

namespace EntityModel

namespace Json

/-! ## Brackets -/

section

variable {α : Type}

/-- Whether a text may start a value: with neither a blank nor a closing bracket. -/
def StartsValue (text : List Char) : Prop :=
  ∃ char rest, text = char :: rest ∧ isSpace char = false ∧ char ≠ ']' ∧ char ≠ '\x7d'

/-- Whether a text reads as an element in front of everything that does not prolong a word. -/
def Reads (element? : List Char → Option (α × List Char)) (text : String) (element : α) : Prop :=
  StartsValue text.toList ∧
    ∀ rest, EndsWord rest → element? (text.toList ++ rest) = some (element, rest)

theorem StartsValue.append {text : List Char} (hstarts : StartsValue text) (rest : List Char) :
    StartsValue (text ++ rest) := by
  obtain ⟨char, others, rfl, hchar⟩ := hstarts
  exact ⟨char, others ++ rest, rfl, hchar⟩

theorem skip_of_startsValue {text : List Char} (hstarts : StartsValue text) :
    skip text = text := by
  obtain ⟨char, rest, rfl, hspace, _⟩ := hstarts
  rw [skip, List.dropWhile_cons_of_neg (by simp [hspace])]

theorem skip_append_of_forall {blanks : List Char} (hblanks : ∀ char ∈ blanks, isSpace char = true)
    (text : List Char) : skip (blanks ++ text) = skip text :=
  List.dropWhile_append_of_pos hblanks

theorem isSpace_of_mem_margin {depth : Nat} {char : Char} (hmem : char ∈ (margin depth).toList) :
    isSpace char = true := by
  rw [margin, String.toList_ofList] at hmem
  rw [List.eq_of_mem_replicate hmem]
  rfl

/-- The lines of elements, each behind a margin. -/
def lines (depth : Nat) (texts : List String) : List Char :=
  (Text.joinWith ",\n" (texts.map (margin depth ++ ·))).toList

theorem lines_singleton (depth : Nat) (text : String) :
    lines depth [text] = (margin depth).toList ++ text.toList := by
  rw [lines, List.map_singleton, Text.joinWith, String.toList_append]

theorem lines_cons_cons (depth : Nat) (text next : String) (texts : List String) :
    lines depth (text :: next :: texts) =
      (margin depth).toList ++ (text.toList ++ (',' :: '\n' :: lines depth (next :: texts))) := by
  rw [lines, List.map_cons, List.map_cons, Text.joinWith_cons_cons]
  simp [lines]

theorem length_le_length_lines (depth : Nat) {texts : List String} {text : String}
    (hmem : text ∈ texts) : text.toList.length ≤ (lines depth texts).length := by
  induction texts with
  | nil => cases hmem
  | cons first texts ih =>
      cases texts with
      | nil =>
          rw [List.mem_singleton.mp hmem, lines_singleton, List.length_append]
          omega
      | cons next texts =>
          rw [lines_cons_cons]
          simp only [List.length_append, List.length_cons]
          rcases List.mem_cons.mp hmem with rfl | hmem
          · omega
          · have hle := ih hmem
            omega

theorem length_texts_le (depth : Nat) {texts : List String}
    (hstarts : ∀ text ∈ texts, StartsValue text.toList) :
    texts.length ≤ (lines depth texts).length := by
  induction texts with
  | nil => exact Nat.zero_le _
  | cons first texts ih =>
      obtain ⟨⟨char, rest, hfirst, _⟩, hstarts⟩ := List.forall_mem_cons.mp hstarts
      have hle := ih hstarts
      cases texts with
      | nil =>
          rw [lines_singleton, hfirst]
          simp only [List.length_append, List.length_cons, List.length_nil]
          omega
      | cons next texts =>
          rw [lines_cons_cons]
          simp only [List.length_append, List.length_cons] at hle ⊢
          omega

theorem skip_margin_append {text : List Char} (hstarts : StartsValue text) (depth : Nat)
    (rest : List Char) :
    skip ((margin depth).toList ++ (text ++ rest)) = text ++ rest := by
  rw [skip_append_of_forall fun _ => isSpace_of_mem_margin,
    skip_of_startsValue (hstarts.append rest)]

theorem skip_newline (text : List Char) : skip ('\n' :: text) = skip text :=
  List.dropWhile_cons_of_pos rfl

/-- The line of a closing bracket. -/
def lastLine (depth : Nat) (closing : Char) (rest : List Char) : List Char :=
  '\n' :: ((margin depth).toList ++ closing :: rest)

theorem skip_lastLine {closing : Char} (hclosing : isSpace closing = false) (depth : Nat)
    (rest : List Char) : skip (lastLine depth closing rest) = closing :: rest := by
  rw [lastLine, skip_newline, skip_append_of_forall fun _ => isSpace_of_mem_margin, skip,
    List.dropWhile_cons_of_neg (by simp [hclosing])]

theorem startsValue_of_reads {element? : List Char → Option (α × List Char)} {texts : List String}
    {elements : List α} (hreads : List.Forall₂ (Reads element?) texts elements) :
    ∀ text ∈ texts, StartsValue text.toList := by
  induction hreads with
  | nil => exact List.forall_mem_nil _
  | cons hread _ ih => exact List.forall_mem_cons.mpr ⟨hread.1, ih⟩

variable {closing : Char} {element? : List Char → Option (α × List Char)}

/-- Lines of elements read back as the elements. -/
theorem elements?_lines (hclosing : closing = ']' ∨ closing = '\x7d') (depth outer : Nat)
    {texts : List String} {elements : List α}
    (hreads : List.Forall₂ (Reads element?) texts elements) (hne : texts ≠ []) (rest : List Char)
    (count : Nat) (hcount : texts.length ≤ count) :
    elements? closing element? count (skip (lines depth texts ++ lastLine outer closing rest)) =
      some (elements, rest) := by
  have hcomma : closing ≠ ',' := by rcases hclosing with rfl | rfl <;> decide
  have hspace : isSpace closing = false := by rcases hclosing with rfl | rfl <;> rfl
  -- Each element takes one step, so what is left of the count covers the lines that are left.
  induction hreads generalizing count with
  | nil => exact absurd rfl hne
  | @cons text element texts elements hread hreads ih =>
      obtain ⟨count, rfl⟩ : ∃ less, count = less + 1 :=
        ⟨count - 1, by simp only [List.length_cons] at hcount; omega⟩
      obtain ⟨hstarts, hread⟩ := hread
      cases hreads with
      | nil =>
          rw [lines_singleton, List.append_assoc, skip_margin_append hstarts, elements?,
            hread _ (by rintro _ ⟨⟩; rfl), Option.bind_eq_bind, Option.bind_some]
          dsimp only
          rw [skip_lastLine hspace]
          dsimp only
          rw [if_neg hcomma, if_pos rfl]
      | @cons next _ texts _ hnext hreads =>
          have hrest := ih (List.cons_ne_nil _ _) count (by simpa using hcount)
          rw [lines_cons_cons]
          simp only [List.append_assoc, List.cons_append]
          rw [skip_margin_append hstarts, elements?,
            hread _ (by rintro _ ⟨⟩; rfl), Option.bind_eq_bind, Option.bind_some]
          have hskip : ∀ text, skip (',' :: text) = ',' :: text := fun _ =>
            List.dropWhile_cons_of_neg (by decide)
          dsimp only
          rw [hskip]
          dsimp only
          rw [if_pos rfl, skip_newline, hrest]
          rfl

theorem length_lt_length_bracketed {texts : List String} {text : String} (hmem : text ∈ texts)
    (depth : Nat) (opening closing : String) :
    text.toList.length < (bracketed depth opening closing texts).toList.length := by
  have hle := length_le_length_lines (depth + 1) hmem
  have hne : texts.isEmpty = false := List.isEmpty_eq_false_iff.mpr (List.ne_nil_of_mem hmem)
  have hnewline : "\n".toList.length = 1 := rfl
  unfold lines at hle
  rw [bracketed, hne, if_neg Bool.false_ne_true]
  simp only [String.toList_append, List.length_append]
  omega

/-- The first line starts a value behind its margin. -/
theorem exists_skip_lines_eq (depth : Nat) {texts : List String} (hne : texts ≠ [])
    (hstarts : ∀ text ∈ texts, StartsValue text.toList) (rest : List Char) :
    ∃ char others, skip (lines depth texts ++ rest) = char :: others ∧
      char ≠ ']' ∧ char ≠ '\x7d' := by
  obtain ⟨first, texts, rfl⟩ := List.exists_cons_of_ne_nil hne
  have hfirst := hstarts first List.mem_cons_self
  obtain ⟨char, others, htext, _, hchar⟩ := hstarts first List.mem_cons_self
  cases texts with
  | nil =>
      rw [lines_singleton, List.append_assoc, skip_margin_append hfirst, htext]
      exact ⟨char, _, rfl, hchar⟩
  | cons next texts =>
      rw [lines_cons_cons, List.append_assoc, List.append_assoc, skip_margin_append hfirst, htext]
      exact ⟨char, _, rfl, hchar⟩

/-- What brackets are written around reads back. -/
theorem exists_bracketed_eq (hclosing : closing = ']' ∨ closing = '\x7d') {texts : List String}
    {elements : List α} (hreads : List.Forall₂ (Reads element?) texts elements) (depth : Nat)
    (opening : String) : ∃ inside,
      (bracketed depth opening (String.singleton closing) texts).toList =
        opening.toList ++ inside ∧
      ∀ rest, sequence? closing element? (inside ++ rest) = some (elements, rest) := by
  have hspace : isSpace closing = false := by rcases hclosing with rfl | rfl <;> rfl
  cases hreads with
  | nil =>
      refine ⟨[closing], by simp [bracketed], fun rest => ?_⟩
      rw [sequence?, List.singleton_append, skip, List.dropWhile_cons_of_neg (by simp [hspace])]
      dsimp only
      rw [if_pos rfl]
  | @cons text element texts elements hread hreads =>
      have hall : List.Forall₂ (Reads element?) (text :: texts) (element :: elements) :=
        .cons hread hreads
      have hstarts := startsValue_of_reads hall
      have hcount := length_texts_le (depth + 1) hstarts
      refine ⟨'\n' :: (lines (depth + 1) (text :: texts) ++ lastLine depth closing []),
        ?_, fun rest => ?_⟩
      · simp [bracketed, lines, lastLine]
      · have hinside : '\n' :: (lines (depth + 1) (text :: texts) ++ lastLine depth closing []) ++
            rest = '\n' :: (lines (depth + 1) (text :: texts) ++ lastLine depth closing rest) := by
          simp [lastLine]
        obtain ⟨char, others, hskip, hchar⟩ := exists_skip_lines_eq (depth + 1)
          (List.cons_ne_nil text texts) hstarts (lastLine depth closing rest)
        have helements := elements?_lines hclosing (depth + 1) depth hall
          (List.cons_ne_nil text texts) rest
        rw [hskip] at helements
        -- The first value does not start with the closing bracket, so there is something inside.
        have hopen : char ≠ closing := by
          rcases hclosing with rfl | rfl
          exacts [hchar.1, hchar.2]
        rw [hinside, sequence?, skip_newline, hskip]
        dsimp only
        rw [if_neg hopen]
        apply helements
        simp only [List.length_cons, List.length_append] at hcount ⊢
        omega

end

/-! ## Documents -/

/-- Whether every number of a document is finite. -/
inductive IsFinite : Json → Prop where
  | null : IsFinite .null
  | boolean (value : Bool) : IsFinite (.boolean value)
  | natural (value : Nat) : IsFinite (.natural value)
  | number (negative : Bool) (magnitude : Magnitude) :
      IsFinite (.number (.finite negative magnitude))
  | string (value : String) : IsFinite (.string value)
  | array (items : List Json) (hitems : ∀ item ∈ items, IsFinite item) : IsFinite (.array items)
  | object (members : List (String × Json)) (hmembers : ∀ member ∈ members, IsFinite member.2) :
      IsFinite (.object members)

theorem itemTexts_eq_map (depth : Nat) (items : List Json) :
    itemTexts depth items = items.map (textAt depth) := by
  induction items with
  | nil => rfl
  | cons item items ih => rw [itemTexts, ih, List.map_cons]

def memberText (depth : Nat) (member : String × Json) : String :=
  stringText member.1 ++ ": " ++ textAt depth member.2

theorem memberTexts_eq_map (depth : Nat) (members : List (String × Json)) :
    memberTexts depth members = members.map (memberText depth) := by
  induction members with
  | nil => rfl
  | cons member members ih => rw [memberTexts, ih, List.map_cons, memberText]

/-- A word in front of everything that does not prolong it reads as what it names. -/
theorem reads_word {text : String} {document : Json}
    (hword : ∀ char ∈ text.toList, isWordChar char = true)
    (hread : ofWord? text.toList = some document) (depth : Nat) :
    Reads (value? (depth + 1)) text document := by
  refine ⟨?_, fun rest hends => value?_word hword hends hread depth⟩
  cases htext : text.toList with
  | nil =>
      rw [htext] at hread
      cases hread
  | cons char rest =>
      have hchar : isWordChar char = true := hword char (htext ▸ List.mem_cons_self)
      have hplain : ∀ other, isWordChar other = false → char ≠ other := by
        rintro other hother rfl
        rw [hchar] at hother
        cases hother
      refine ⟨char, rest, rfl, ?_, hplain _ rfl, hplain _ rfl⟩
      simp [isSpace, hplain ' ' rfl, hplain '\t' rfl, hplain '\n' rfl, hplain '\r' rfl]

theorem reads_numeral {text : String} {document : Json}
    (hnumeral : ∀ char ∈ text.toList, Numeral.isNumeralChar char = true)
    (hread : ofNumeral? text.toList = some document) (depth : Nat) :
    Reads (value? (depth + 1)) text document := by
  refine reads_word (fun char hchar => ?_) ?_ depth
  · rw [isWordChar, hnumeral char hchar, Bool.or_true]
  · rw [ofWord?_of_numeral hnumeral, hread]

theorem toList_stringText (value : String) : (stringText value).toList =
    '\x22' :: (value.toList.flatMap escapeChar ++ ['\x22']) :=
  String.toList_ofList

theorem reads_string (value : String) (depth : Nat) :
    Reads (value? (depth + 1)) (stringText value) (.string value) := by
  rw [Reads, toList_stringText]
  refine ⟨⟨'\x22', _, rfl, rfl, by decide, by decide⟩, fun rest _ => ?_⟩
  rw [List.cons_append, List.append_assoc, List.singleton_append, value?, if_pos rfl,
    stringTail?_escaped, Option.map_some]
  dsimp only
  rw [String.ofList_toList]

/-- A member reads back if its value does. -/
theorem reads_member {read? : List Char → Option (Json × List Char)} {depth : Nat}
    {member : String × Json} (hread : Reads read? (textAt depth member.2) member.2) :
    Reads (member? read?) (memberText depth member) member := by
  obtain ⟨hstarts, hread⟩ := hread
  obtain ⟨name, value⟩ := member
  rw [Reads, memberText, String.toList_append, String.toList_append, toList_stringText]
  refine ⟨⟨'\x22', _, rfl, rfl, by decide, by decide⟩, fun rest hends => ?_⟩
  have hcolon : ∀ text, skip (": ".toList ++ text) = ':' :: ' ' :: text := fun _ =>
    List.dropWhile_cons_of_neg (by decide)
  have hblank : ∀ text, skip (' ' :: text) = skip text := fun _ => List.dropWhile_cons_of_pos rfl
  simp only [List.cons_append, List.append_assoc]
  rw [member?, if_pos rfl, stringTail?_escaped, Option.bind_eq_bind, Option.bind_some]
  dsimp only
  rw [List.nil_append, hcolon]
  dsimp only
  rw [if_pos rfl, hblank, skip_of_startsValue (hstarts.append rest), hread rest hends]
  simp

/-- A document in brackets reads back if its parts do. -/
theorem reads_bracketed {α : Type} {opening closing : Char}
    {element? : List Char → Option (α × List Char)} {texts : List String} {elements : List α}
    {document : Json} {fuel : Nat} (hopening : opening = '[' ∨ opening = '\x7b')
    (hclosing : closing = ']' ∨ closing = '\x7d')
    (hreads : List.Forall₂ (Reads element?) texts elements) (depth : Nat)
    (hvalue : ∀ text rest, sequence? closing element? text = some (elements, rest) →
      value? fuel (opening :: text) = some (document, rest)) :
    Reads (value? fuel)
      (bracketed depth (String.singleton opening) (String.singleton closing) texts) document := by
  obtain ⟨inside, htext, hinside⟩ :=
    exists_bracketed_eq hclosing hreads depth (String.singleton opening)
  rw [String.toList_singleton, List.singleton_append] at htext
  rw [Reads, htext]
  refine ⟨⟨opening, inside, rfl, ?_⟩, fun rest _ => hvalue _ _ (hinside rest)⟩
  rcases hopening with rfl | rfl <;> decide

/-- Whether a document reads back from its text at a depth, with any fuel that its text needs. -/
def ReadsBack (depth : Nat) (document : Json) : Prop :=
  ∀ fuel, (textAt depth document).toList.length ≤ fuel →
    Reads (value? (fuel + 1)) (textAt depth document) document

/-- A part of a document reads back with the fuel that is left inside its brackets. -/
theorem ReadsBack.reads_of_lt {document : Json} {depth bound fuel : Nat}
    (hread : document.ReadsBack depth) (hlt : (textAt depth document).toList.length < bound)
    (hfuel : bound ≤ fuel) : Reads (value? fuel) (textAt depth document) document := by
  obtain ⟨less, rfl⟩ : ∃ less, fuel = less + 1 := ⟨fuel - 1, by omega⟩
  exact hread less (by omega)

theorem readsBack_null (depth : Nat) : null.ReadsBack depth := by
  intro fuel _
  have hword : ∀ char ∈ "null".toList, isWordChar char = true := List.all_eq_true.mp rfl
  exact reads_word hword rfl fuel

theorem readsBack_boolean (value : Bool) (depth : Nat) : (boolean value).ReadsBack depth := by
  intro fuel _
  cases value with
  | true =>
      have hword : ∀ char ∈ "true".toList, isWordChar char = true := List.all_eq_true.mp rfl
      exact reads_word hword rfl fuel
  | false =>
      have hword : ∀ char ∈ "false".toList, isWordChar char = true := List.all_eq_true.mp rfl
      exact reads_word hword rfl fuel

theorem readsBack_natural (value depth : Nat) : (natural value).ReadsBack depth := by
  intro fuel _
  have htext : (textAt depth (.natural value)).toList = Nat.toDigits 10 value := by
    rw [textAt, Nat.repr_eq_ofList_toDigits, String.toList_ofList]
  refine reads_numeral (fun char hchar => ?_) ?_ fuel
  · rw [htext] at hchar
    rw [Numeral.isNumeralChar, Numeral.isAsciiDigit_of_mem_toDigits hchar, Bool.true_or]
  · rw [htext, ofNumeral?_toDigits]

theorem readsBack_number (negative : Bool) (magnitude : Magnitude) (depth : Nat) :
    (number (.finite negative magnitude)).ReadsBack depth := by
  intro fuel _
  -- A fraction is always written, so the numeral is not taken for a natural number.
  have hfraction : numberStyle.fraction = true := rfl
  obtain ⟨parts, htext, hmarked, hread⟩ :=
    Numeral.Parts.exists_text_finite hfraction negative magnitude
  refine reads_numeral (fun char hchar => ?_) ?_ fuel
  · rw [textAt, htext] at hchar
    rcases List.mem_append.mp hchar with hsign | hmem
    · split at hsign
      · rw [List.mem_singleton.mp hsign]
        rfl
      · cases hsign
    · exact parts.isNumeralChar_text char hmem
  · rw [textAt, htext, ofNumeral?_text hmarked, hread]

theorem readsBack_array {items : List Json} {depth : Nat}
    (hitems : ∀ item ∈ items, item.ReadsBack (depth + 1)) : (array items).ReadsBack depth := by
  intro fuel hfuel
  rw [textAt, itemTexts_eq_map] at hfuel ⊢
  have hreads : List.Forall₂ (Reads (value? fuel)) (items.map (textAt (depth + 1))) items := by
    rw [List.forall₂_map_left_iff, List.forall₂_same]
    intro item hitem
    exact (hitems item hitem).reads_of_lt
      (length_lt_length_bracketed (List.mem_map_of_mem hitem) depth "[" "]") hfuel
  refine reads_bracketed (Or.inl rfl) (Or.inl rfl) hreads depth ?_
  intro text rest hsequence
  rw [value?, if_neg (by decide), if_pos rfl, hsequence, Option.map_some]

theorem readsBack_object {members : List (String × Json)} {depth : Nat}
    (hmembers : ∀ member ∈ members, member.2.ReadsBack (depth + 1)) :
    (object members).ReadsBack depth := by
  intro fuel hfuel
  rw [textAt, memberTexts_eq_map] at hfuel ⊢
  have hreads : List.Forall₂ (Reads (member? (value? fuel)))
      (members.map (memberText (depth + 1))) members := by
    rw [List.forall₂_map_left_iff, List.forall₂_same]
    intro member hmember
    have hmem : memberText (depth + 1) member ∈ members.map (memberText (depth + 1)) :=
      List.mem_map_of_mem hmember
    have hvalue : (textAt (depth + 1) member.2).toList.length ≤
        (memberText (depth + 1) member).toList.length := by
      rw [memberText, String.toList_append, List.length_append]
      omega
    exact reads_member ((hmembers member hmember).reads_of_lt
      (hvalue.trans_lt (length_lt_length_bracketed hmem depth "\x7b" "\x7d")) hfuel)
  refine reads_bracketed (Or.inr rfl) (Or.inr rfl) hreads depth ?_
  intro text rest hsequence
  rw [value?, if_neg (by decide), if_neg (by decide), if_pos rfl, hsequence, Option.map_some]

/-- A document without infinite numbers reads back from its text, wherever that stands. -/
theorem IsFinite.readsBack {document : Json} (hfinite : document.IsFinite) (depth : Nat) :
    document.ReadsBack depth := by
  induction hfinite generalizing depth with
  | null => exact readsBack_null depth
  | boolean value => exact readsBack_boolean value depth
  | natural value => exact readsBack_natural value depth
  | number negative magnitude => exact readsBack_number negative magnitude depth
  | string value => exact fun fuel _ => reads_string value fuel
  | array items hitems ih => exact readsBack_array fun item hitem => ih item hitem (depth + 1)
  | object members hmembers ih =>
      exact readsBack_object fun member hmember => ih member hmember (depth + 1)

/-- A document without infinite numbers reads back from its text. -/
theorem ofText?_text {document : Json} (hfinite : document.IsFinite) :
    ofText? document.text = some document := by
  obtain ⟨hstarts, hread⟩ := hfinite.readsBack 0 _ le_rfl
  have hwhole := hread [] (by nofun)
  rw [List.append_nil] at hwhole
  rw [ofText?, text, skip_of_startsValue hstarts, hwhole]
  rfl

example : (ofText? "[1, 2.5e+1]").isSome = true := by decide +kernel
example : (ofText? "[1, 02]").isSome = false := by decide +kernel
example : (ofText? "[1, 2, ]").isSome = false := by decide +kernel

end Json

end EntityModel
