import EntityModel.Proofs.Schema.Quoted
import EntityModel.Schema.Declaration
import EntityModel.Syntax.Character
import Mathlib.Data.List.Infix

/-!
# Comments in front of schemas

The comment in front of a schema should be closed by its last characters only and have one line for
each column. The names in it are written as they are, so this depends on what they hold: the mark
that closes a comment, or the end of a line (`isDocumented_iff`).
-/

namespace EntityModel.Schema

open Syntax (isLineEnd)

/-- Whether the mark that closes a comment stands in a text. -/
def Closes (text : List Char) : Prop := "*/".toList <:+: text

/-- Whether a text is a comment on lines of its own: its last characters close it, and nothing
before them does. -/
def IsComment (text : List Char) : Prop :=
  ∃ inside, text = "/**".toList ++ (inside ++ "*/\n".toList) ∧
    ∀ front back, inside ++ "*/\n".toList = front ++ ("*/".toList ++ back) → front = inside

/-- The lines of a text, whatever ends them. -/
def textLines (text : List Char) : List (List Char) := text.splitOnP isLineEnd

/-- What the line of a property starts with. -/
def propertyMark : List Char := " * @property ".toList

def propertyLines (text : List Char) : List (List Char) :=
  (textLines text).filter propertyMark.isPrefixOf

/-- The line of a column. -/
def documentedLine (property : String) (column : Column) : String :=
  " * @property \x7b" ++ documentedType column ++ "\x7d " ++ property

/-- The lines of the columns of an entity, in their order. -/
def documentedLines (entity : Entity) : List String :=
  entity.columns.entries.map fun (property, column) => documentedLine property column

/-- Whether an entity is described by a comment with one line for each of its columns, in their
order. -/
structure IsDocumented (entity : Entity) : Prop where
  isComment : IsComment (typeComment entity).toList
  propertyLines_eq : propertyLines (typeComment entity).toList =
    (documentedLines entity).map String.toList

variable {front back text : List Char}

/-! ## Marks that close a comment -/

theorem closes_cons_iff {char : Char} : Closes (char :: text) ↔
    char = '*' ∧ text.head? = some '/' ∨ Closes text := by
  have hmark : "*/".toList = ['*', '/'] := rfl
  have hhead : ['/'] <+: text ↔ text.head? = some '/' := by
    cases text with
    | nil => simp
    | cons next text => simp [List.cons_prefix_cons, eq_comm]
  rw [Closes, Closes, hmark, List.infix_cons_iff, List.cons_prefix_cons, hhead, eq_comm]

theorem closes_cons_of_ne {char : Char} (hne : char ≠ '*') :
    Closes (char :: text) ↔ Closes text := by
  rw [closes_cons_iff, or_iff_right fun hmark => hne hmark.1]

@[simp] theorem not_closes_nil : ¬ Closes [] := by
  rintro ⟨before, after, heq⟩
  simp at heq

instance decidableCloses : (text : List Char) → Decidable (Closes text)
  | [] => isFalse not_closes_nil
  | char :: text =>
    if hmark : char = '*' ∧ text.head? = some '/' then
      isTrue (closes_cons_iff.mpr (Or.inl hmark))
    else
      have := decidableCloses text
      decidable_of_iff (Closes text) (by rw [closes_cons_iff, or_iff_right hmark])

/-- A mark stands in one of two texts, unless they share it. -/
theorem closes_append_iff (hfree : front.getLast? ≠ some '*' ∨ back.head? ≠ some '/') :
    Closes (front ++ back) ↔ Closes front ∨ Closes back := by
  induction front with
  | nil => simp
  | cons char front ih =>
      rw [List.cons_append, closes_cons_iff, closes_cons_iff]
      cases front with
      | nil =>
          have hapart : ¬ (char = '*' ∧ back.head? = some '/') := by
            rintro ⟨rfl, hhead⟩
            exact hfree.elim (fun hlast => hlast rfl) fun hnext => hnext hhead
          simp [hapart]
      | cons next front =>
          rw [List.getLast?_cons_cons] at hfree
          rw [ih hfree, List.cons_append, List.head?_cons, List.head?_cons, or_assoc]

theorem closes_append_of_getLast? {last : Char} (hlast : front.getLast? = some last)
    (hne : last ≠ '*') : Closes (front ++ back) ↔ Closes front ∨ Closes back :=
  closes_append_iff (Or.inl (by simp [hlast, hne]))

theorem closes_append_of_head? {first : Char} (hfirst : back.head? = some first)
    (hne : first ≠ '/') : Closes (front ++ back) ↔ Closes front ∨ Closes back :=
  closes_append_iff (Or.inr (by simp [hfirst, hne]))

/-- A comment is closed too early exactly if a mark stands inside of it. -/
theorem isComment_iff {inside : List Char} :
    IsComment ("/**".toList ++ (inside ++ "*/\n".toList)) ↔ ¬ Closes inside := by
  constructor
  · rintro ⟨inside', htext, hfirst⟩ ⟨before, after, rfl⟩
    obtain rfl := List.append_cancel_right (List.append_cancel_left htext)
    have hbefore := hfirst before (after ++ "*/\n".toList) (by simp)
    have hlength := congrArg List.length hbefore
    simp at hlength
  · intro hfree
    refine ⟨inside, rfl, fun front back heq => ?_⟩
    rcases List.append_eq_append_iff.mp heq with ⟨others, rfl, hothers⟩ | ⟨others, rfl, hothers⟩
    · match others with
      | [] => exact List.append_nil _
      | [_] => simp at hothers
      | [_, _] => simp at hothers
      | _ :: _ :: _ :: _ => simp at hothers
    · match others with
      | [] => exact (List.append_nil _).symm
      | [_] => simp at hothers
      | first :: second :: others =>
          obtain ⟨hfirst, hsecond⟩ := List.cons.inj hothers
          obtain ⟨hsecond, -⟩ := List.cons.inj hsecond
          refine absurd ⟨front, others, ?_⟩ hfree
          rw [← hfirst, ← hsecond, List.append_assoc]
          rfl

theorem closes_unlines_iff (lines : List String) :
    Closes (Text.unlines lines).toList ↔ ∃ line ∈ lines, Closes line.toList := by
  induction lines with
  | nil => simp [Text.unlines]
  | cons line lines ih =>
      have hfeed : '\n' ≠ '/' := by decide
      have hchars : (Text.unlines (line :: lines)).toList =
          line.toList ++ '\n' :: (Text.unlines lines).toList := by simp [Text.unlines]
      rw [hchars, closes_append_of_head? rfl hfeed, closes_cons_of_ne (by decide), ih]
      simp

/-! ## What is written in a comment -/

theorem closes_escapeChar_append (char : Char) (rest : List Char) :
    Closes (escapeChar char ++ rest) ↔ char = '*' ∧ rest.head? = some '/' ∨ Closes rest := by
  have hescaped : ∀ letter, letter ≠ '*' → char ≠ '*' →
      (Closes (['\\', letter] ++ rest) ↔ char = '*' ∧ rest.head? = some '/' ∨ Closes rest) := by
    intro letter hletter hchar
    rw [List.cons_append, List.cons_append, List.nil_append, closes_cons_of_ne (by decide),
      closes_cons_of_ne hletter, or_iff_right fun hmark => hchar hmark.1]
  unfold escapeChar
  split_ifs with hslash hquote hfeed hreturn htab
  · exact hescaped '\\' (by decide) (hslash ▸ by decide)
  · exact hescaped '\x27' (by decide) (hquote ▸ by decide)
  · exact hescaped 'n' (by decide) (hfeed ▸ by decide)
  · exact hescaped 'r' (by decide) (hreturn ▸ by decide)
  · exact hescaped 't' (by decide) (htab ▸ by decide)
  · exact closes_cons_iff

/-- Quoting text hides no mark and makes none. -/
theorem closes_flatMap_escapeChar (value : List Char) :
    Closes (value.flatMap escapeChar) ↔ Closes value := by
  induction value with
  | nil => rfl
  | cons char value ih =>
      have hhead : (value.flatMap escapeChar).head? = some '/' ↔ value.head? = some '/' := by
        cases value with
        | nil => rfl
        | cons next value =>
            rw [List.flatMap_cons]
            unfold escapeChar
            split_ifs <;> simp_all
      rw [List.flatMap_cons, closes_escapeChar_append, hhead, ih, closes_cons_iff]

theorem closes_quoted_iff (value : String) :
    Closes (quoted value).toList ↔ Closes value.toList := by
  have hchars : (quoted value).toList =
      '\x27' :: (value.toList.flatMap escapeChar ++ ['\x27']) := by
    rw [quoted, quoteChars, String.toList_ofList]
  have hquote : '\x27' ≠ '/' := by decide
  rw [hchars, closes_cons_of_ne (by decide), closes_append_of_head? rfl hquote,
    closes_flatMap_escapeChar, or_iff_left (by decide)]

theorem closes_joinWith_iff (values : List String) :
    Closes (Text.joinWith " | " values).toList ↔ ∃ value ∈ values, Closes value.toList := by
  induction values with
  | nil => simp [Text.joinWith]
  | cons value values ih =>
      cases values with
      | nil => simp [Text.joinWith]
      | cons next values =>
          have hblank : ' ' ≠ '/' := by decide
          have hchars : (Text.joinWith " | " (value :: next :: values)).toList = value.toList ++
              (' ' :: '|' :: ' ' :: (Text.joinWith " | " (next :: values)).toList) := by
            simp [Text.joinWith]
          rw [hchars, closes_append_of_head? rfl hblank, closes_cons_of_ne (by decide),
            closes_cons_of_ne (by decide), closes_cons_of_ne (by decide), ih]
          simp

/-- The types of columns that list no values. -/
def plainTypes : List String :=
  ["number", "boolean", "Date", "object", "string",
    "number[]", "boolean[]", "Date[]", "object[]", "string[]"]

/-- The texts that are listed as the values of a column. -/
def listedValues (column : Column) : List String :=
  if column.type = "enum" then column.enumValues else []

theorem valueKind_mem (type : String) : Column.valueKind type ∈ plainTypes ∧
    Column.valueKind type ++ "[]" ∈ plainTypes := by
  unfold Column.valueKind
  split_ifs <;> decide

/-- A type is one of the plain ones if no values are listed, or else the list of them. -/
theorem documentedType_cases (column : Column) :
    (listedValues column = [] ∧ documentedType column ∈ plainTypes) ∨
      documentedType column = Text.joinWith " | " ((listedValues column).map quoted) ∨
      documentedType column =
        "(" ++ Text.joinWith " | " ((listedValues column).map quoted) ++ ")[]" := by
  by_cases hlisted : column.type = "enum" ∧ column.enumValues ≠ []
  · obtain ⟨htype, hvalues⟩ := hlisted
    cases harray : column.array <;>
      simp [documentedType, listedValues, htype, hvalues, harray, String.append_assoc]
  · have hnone : listedValues column = [] := by
      unfold listedValues
      split
      next htype => exact not_not.mp fun hvalues => hlisted ⟨htype, hvalues⟩
      next => rfl
    obtain ⟨hsingle, hmany⟩ := valueKind_mem column.type
    have hbase : (column.type = "enum" && !column.enumValues.isEmpty) = false := by
      simpa using hlisted
    refine Or.inl ⟨hnone, ?_⟩
    cases harray : column.array <;> simp [documentedType, hbase, harray, hsingle, hmany]

theorem closes_documentedType_iff (column : Column) :
    Closes (documentedType column).toList ↔ ∃ value ∈ listedValues column, Closes value.toList := by
  have hvalues : Closes (Text.joinWith " | " ((listedValues column).map quoted)).toList ↔
      ∃ value ∈ listedValues column, Closes value.toList := by
    simp [closes_joinWith_iff, closes_quoted_iff]
  rcases documentedType_cases column with ⟨hnone, hplain⟩ | htype | htype
  · have hfree : ∀ type ∈ plainTypes, ¬ Closes type.toList := by decide
    simp [hnone, hfree _ hplain]
  · rw [htype, hvalues]
  · have hbracket : ')' ≠ '/' := by decide
    have hchars : (documentedType column).toList = '(' ::
        ((Text.joinWith " | " ((listedValues column).map quoted)).toList ++ [')', '[', ']']) := by
      simp [htype]
    rw [hchars, closes_cons_of_ne (by decide), closes_append_of_head? rfl hbracket, hvalues,
      or_iff_left (by decide)]

/-! ## What ends a line -/

theorem not_mem_of_isLineEnd {char : Char} (hend : isLineEnd char = true)
    (htext : ∀ other ∈ text, isLineEnd other = false) : char ∉ text :=
  fun hmem => Bool.false_ne_true ((htext char hmem).symm.trans hend)

theorem isLineEnd_of_any (htext : text.any isLineEnd = false) :
    ∀ char ∈ text, isLineEnd char = false := by
  simpa using htext

/-- Quoting text takes the ends of lines away that have an escape. -/
theorem mem_quoted_iff {char : Char} (hend : isLineEnd char = true) (value : String) :
    char ∈ (quoted value).toList ↔ char ∈ value.toList ∧ char ≠ '\n' ∧ char ≠ '\r' := by
  by_cases hbreak : char = '\n' ∨ char = '\r'
  · refine iff_of_false (lineBreak_not_mem_quoted hbreak value) ?_
    rintro ⟨-, hfeed, hreturn⟩
    exact hbreak.elim hfeed hreturn
  · rw [not_or] at hbreak
    have hother : char ∉ ['\\', '\x27', '\t', 'n', 'r', 't'] :=
      not_mem_of_isLineEnd hend (isLineEnd_of_any rfl)
    simp only [List.mem_cons, List.not_mem_nil, or_false, not_or] at hother
    have hescape : ∀ other, char ∈ escapeChar other ↔ char = other := by
      intro other
      unfold escapeChar
      split_ifs <;> simp_all
    simp [quoted, quoteChars, hescape, hother, hbreak]

theorem mem_joinWith_iff {char : Char} (hend : isLineEnd char = true) (values : List String) :
    char ∈ (Text.joinWith " | " values).toList ↔ ∃ value ∈ values, char ∈ value.toList := by
  have hseparator : char ∉ " | ".toList := not_mem_of_isLineEnd hend (isLineEnd_of_any rfl)
  induction values with
  | nil => simp [Text.joinWith]
  | cons value values ih =>
      cases values with
      | nil => simp [Text.joinWith]
      | cons next values =>
          rw [Text.joinWith_cons_cons, String.toList_append, String.toList_append,
            List.mem_append, List.mem_append, or_iff_left hseparator]
          simp [ih]

theorem mem_documentedType_iff {char : Char} (hend : isLineEnd char = true) (column : Column) :
    char ∈ (documentedType column).toList ↔
      ∃ value ∈ listedValues column, char ∈ value.toList ∧ char ≠ '\n' ∧ char ≠ '\r' := by
  have hvalues : char ∈ (Text.joinWith " | " ((listedValues column).map quoted)).toList ↔
      ∃ value ∈ listedValues column, char ∈ value.toList ∧ char ≠ '\n' ∧ char ≠ '\r' := by
    simp [mem_joinWith_iff hend, mem_quoted_iff hend]
  have hall : ∀ text ∈ "(" :: ")[]" :: plainTypes, text.toList.any isLineEnd = false := by decide
  have hfree : ∀ text ∈ "(" :: ")[]" :: plainTypes, char ∉ text.toList :=
    fun text htext => not_mem_of_isLineEnd hend (isLineEnd_of_any (hall text htext))
  rcases documentedType_cases column with ⟨hnone, hplain⟩ | htype | htype
  · simp [hnone, hfree _ (List.mem_cons_of_mem _ (List.mem_cons_of_mem _ hplain))]
  · rw [htype, hvalues]
  · rw [htype, String.toList_append, String.toList_append, List.mem_append, List.mem_append,
      hvalues, or_iff_right (hfree "(" (by simp)), or_iff_left (hfree ")[]" (by simp))]

/-! ## Lines of properties -/

theorem isLineEnd_of_mem_textLines {line : List Char} (hline : line ∈ textLines text) :
    ∀ char ∈ line, isLineEnd char = false := by
  induction text generalizing line with
  | nil =>
      obtain rfl := List.mem_singleton.mp hline
      exact List.forall_mem_nil _
  | cons char text ih =>
      obtain ⟨first, others, htext⟩ :=
        List.exists_cons_of_ne_nil (List.splitOnP_ne_nil isLineEnd text)
      rw [textLines, htext] at ih
      rw [textLines, List.splitOnP_cons_eq_if_modifyHead, htext] at hline
      split at hline
      case isTrue =>
        rcases List.mem_cons.mp hline with rfl | hline
        · exact List.forall_mem_nil _
        · exact ih hline
      case isFalse hinner =>
        rcases List.mem_cons.mp hline with rfl | hline
        · exact List.forall_mem_cons.mpr
            ⟨Bool.not_eq_true _ ▸ hinner, ih (List.mem_cons_self ..)⟩
        · exact ih (List.mem_cons_of_mem _ hline)

theorem textLines_append (hfront : ∀ char ∈ front, isLineEnd char = false) (back : List Char) :
    ∃ first others, textLines back = first :: others ∧
      textLines (front ++ back) = (front ++ first) :: others := by
  obtain ⟨first, others, hback⟩ :=
    List.exists_cons_of_ne_nil (List.splitOnP_ne_nil isLineEnd back)
  refine ⟨first, others, hback, ?_⟩
  induction front with
  | nil => exact hback
  | cons char front ih =>
      rw [List.forall_mem_cons] at hfront
      have hrest : (front ++ back).splitOnP isLineEnd = (front ++ first) :: others := ih hfront.2
      rw [textLines, List.cons_append, List.splitOnP_cons_eq_if_modifyHead, hfront.1, hrest]
      rfl

theorem textLines_unlines (lines : List String) :
    textLines (Text.unlines lines).toList =
      lines.flatMap (fun line => textLines line.toList) ++ [[]] := by
  induction lines with
  | nil => rfl
  | cons line lines ih =>
      have hchars : (Text.unlines (line :: lines)).toList =
          line.toList ++ '\n' :: (Text.unlines lines).toList := by simp [Text.unlines]
      have hfeed : isLineEnd '\n' = true := by decide
      rw [hchars, textLines, List.splitOnP_append_cons _ _ hfeed, List.flatMap_cons,
        List.append_assoc, ← ih]
      rfl

/-- If something is found for each item and no more than there are items, it is found there. -/
theorem eq_of_append_flatMap_eq_map {α β : Type} {found : α → List β} {expected : α → β}
    {others : List β} {items : List α} (hfound : ∀ item ∈ items, found item ≠ [])
    (heq : others ++ items.flatMap found = items.map expected) :
    others = [] ∧ ∀ item ∈ items, found item = [expected item] := by
  induction items generalizing others with
  | nil => simpa using heq
  | cons item items ih =>
      rw [List.forall_mem_cons] at hfound
      rw [List.flatMap_cons, List.map_cons] at heq
      cases others with
      | nil =>
          obtain ⟨first, rest, hfirst⟩ := List.exists_cons_of_ne_nil hfound.1
          rw [hfirst, List.nil_append, List.cons_append, List.cons.injEq] at heq
          obtain ⟨rfl, hrest⟩ := ih hfound.2 heq.2
          rw [heq.1] at hfirst
          exact ⟨rfl, List.forall_mem_cons.mpr ⟨hfirst, hrest⟩⟩
      | cons first others =>
          rw [List.cons_append, List.cons.injEq, ← List.append_assoc] at heq
          have hnone := (ih hfound.2 heq.2).1
          exact absurd (List.append_eq_nil_iff.mp hnone).2 hfound.1

theorem propertyLines_unlines (lines : List String) :
    propertyLines (Text.unlines lines).toList =
      lines.flatMap fun line => propertyLines line.toList := by
  have hlast : [[]].filter propertyMark.isPrefixOf = [] := by decide
  rw [propertyLines, textLines_unlines, List.filter_append, List.filter_flatMap, hlast,
    List.append_nil]
  rfl

/-! ## Comments of entities -/

/-- What the line of an entity starts with. -/
def titleMark : String := " * @typedef \x7bObject\x7d "

def titleLine (entity : Entity) : String := titleMark ++ entity.name

/-- The lines between the first and the last one of a comment. -/
def innerLines (entity : Entity) : List String :=
  titleLine entity :: documentedLines entity

theorem typeComment_eq (entity : Entity) :
    typeComment entity = Text.unlines (["/**"] ++ innerLines entity ++ [" */"]) := rfl

theorem documentedLine_toList (property : String) (column : Column) :
    (documentedLine property column).toList = " * @property \x7b".toList ++
      ((documentedType column).toList ++ ("\x7d ".toList ++ property.toList)) := by
  delta documentedLine
  rw [String.toList_append, String.toList_append, String.toList_append, List.append_assoc,
    List.append_assoc]

theorem closes_titleLine_iff (entity : Entity) :
    Closes (titleLine entity).toList ↔ Closes entity.name.toList := by
  have hmark : ¬ Closes titleMark.toList := by decide
  have hlast : titleMark.toList.getLast? = some ' ' := by decide
  rw [titleLine, String.toList_append, closes_append_of_getLast? hlast (by decide),
    or_iff_right hmark]

theorem closes_documentedLine_iff (property : String) (column : Column) :
    Closes (documentedLine property column).toList ↔
      Closes property.toList ∨ ∃ value ∈ listedValues column, Closes value.toList := by
  have hmark : ¬ Closes " * @property \x7b".toList := by decide
  have hlast : " * @property \x7b".toList.getLast? = some '\x7b' := by decide
  have hbrace : ("\x7d ".toList ++ property.toList).head? = some '\x7d' := rfl
  have hclosed : ¬ Closes "\x7d ".toList := by decide
  have hblank : "\x7d ".toList.getLast? = some ' ' := by decide
  rw [documentedLine_toList, closes_append_of_getLast? hlast (by decide), or_iff_right hmark,
    closes_append_of_head? hbrace (by decide), closes_append_of_getLast? hblank (by decide),
    or_iff_right hclosed, closes_documentedType_iff, or_comm]

theorem isComment_typeComment_iff (entity : Entity) : IsComment (typeComment entity).toList ↔
    ∀ line ∈ innerLines entity, ¬ Closes line.toList := by
  have hchars : (typeComment entity).toList = "/**".toList ++
      (('\n' :: ((Text.unlines (innerLines entity)).toList ++ [' '])) ++ "*/\n".toList) := by
    rw [typeComment_eq, Text.unlines_append, Text.unlines_append, String.toList_append,
      String.toList_append, List.append_assoc]
    simp [Text.unlines]
  have hblank : ' ' ≠ '/' := by decide
  have hlast : ¬ Closes [' '] := by decide
  rw [hchars, isComment_iff, closes_cons_of_ne (by decide), closes_append_of_head? rfl hblank,
    closes_unlines_iff, or_iff_left hlast]
  push Not
  rfl

/-- The first line of a title is not that of a property. -/
theorem propertyLines_titleLine (entity : Entity) : propertyLines (titleLine entity).toList =
    (textLines entity.name.toList).tail.filter propertyMark.isPrefixOf := by
  have hmark : ∀ char ∈ titleMark.toList, isLineEnd char = false := isLineEnd_of_any rfl
  obtain ⟨first, others, hname, htitle⟩ := textLines_append hmark entity.name.toList
  have hfirst : ¬ propertyMark.isPrefixOf (titleMark.toList ++ first) := nofun
  rw [propertyLines, titleLine, String.toList_append, htitle, hname, List.tail_cons,
    List.filter_cons_of_neg hfirst]

/-- The first line of the text of a column is that of a property. -/
theorem propertyLines_documentedLine_ne_nil (property : String) (column : Column) :
    propertyLines (documentedLine property column).toList ≠ [] := by
  have hfree : ∀ char ∈ " * @property \x7b".toList, isLineEnd char = false :=
    isLineEnd_of_any rfl
  have hmark : " * @property \x7b".toList = propertyMark ++ ['\x7b'] := by decide
  obtain ⟨first, others, -, hlines⟩ := textLines_append hfree
    ((documentedType column).toList ++ ("\x7d ".toList ++ property.toList))
  rw [propertyLines, documentedLine_toList, hlines, hmark, List.append_assoc,
    List.filter_cons_of_pos (List.isPrefixOf_iff_prefix.mpr (List.prefix_append _ _))]
  exact List.cons_ne_nil _ _

theorem propertyLines_documentedLine_eq_iff (property : String) (column : Column) :
    propertyLines (documentedLine property column).toList =
        [(documentedLine property column).toList] ↔
      ∀ char ∈ (documentedLine property column).toList, isLineEnd char = false := by
  constructor
  · intro hline
    have hmem := List.mem_singleton_self (documentedLine property column).toList
    rw [← hline] at hmem
    exact isLineEnd_of_mem_textLines (List.mem_filter.mp hmem).1
  · intro hfree
    have hsome := propertyLines_documentedLine_ne_nil property column
    rw [propertyLines, textLines, List.splitOnP_eq_singleton hfree] at hsome ⊢
    exact List.filter_eq_self.mpr fun line hline => by
      obtain rfl := List.mem_singleton.mp hline
      by_contra hnone
      exact hsome (List.filter_cons_of_neg hnone)

theorem forall_documentedLine_iff (property : String) (column : Column) :
    (∀ char ∈ (documentedLine property column).toList, isLineEnd char = false) ↔
      (∀ char ∈ property.toList, isLineEnd char = false) ∧
      ∀ value ∈ listedValues column, ∀ char ∈ value.toList, isLineEnd char = true →
        char = '\n' ∨ char = '\r' := by
  -- A line end in the line is one of the key, or one of a listed value that has no escape.
  have hchars : ∀ char, isLineEnd char = true →
      (char ∈ (documentedLine property column).toList ↔ char ∈ property.toList ∨
        ∃ value ∈ listedValues column, char ∈ value.toList ∧ char ≠ '\n' ∧ char ≠ '\r') := by
    intro char hend
    have hmark : char ∉ " * @property \x7b".toList ++ "\x7d ".toList :=
      not_mem_of_isLineEnd hend (isLineEnd_of_any rfl)
    rw [List.mem_append, not_or] at hmark
    rw [documentedLine_toList, List.mem_append, or_iff_right hmark.1, List.mem_append,
      List.mem_append, or_iff_right hmark.2, mem_documentedType_iff hend, or_comm]
  constructor
  · intro hline
    refine ⟨fun char hmem => ?_, fun value hvalue char hmem hend => ?_⟩
    · by_contra hend
      rw [Bool.not_eq_false] at hend
      exact not_mem_of_isLineEnd hend hline ((hchars char hend).mpr (Or.inl hmem))
    · by_contra hbreak
      rw [not_or] at hbreak
      exact not_mem_of_isLineEnd hend hline
        ((hchars char hend).mpr (Or.inr ⟨value, hvalue, hmem, hbreak⟩))
  · rintro ⟨hkey, hvalues⟩ char hmem
    by_contra hend
    rw [Bool.not_eq_false] at hend
    rcases (hchars char hend).mp hmem with hmem | ⟨value, hvalue, hmem, hfeed, hreturn⟩
    · exact not_mem_of_isLineEnd hend hkey hmem
    · exact (hvalues value hvalue char hmem hend).elim hfeed hreturn

/-- Whether what an entity is made of does no harm in a comment: its name, the keys of its columns
and the values that they list. -/
structure IsHarmless (entity : Entity) : Prop where
  name : ¬ Closes entity.name.toList
  name_lines : ∀ line ∈ (textLines entity.name.toList).tail, ¬ propertyMark <+: line
  keys : ∀ entry ∈ entity.columns.entries,
    ¬ Closes entry.1.toList ∧ ∀ char ∈ entry.1.toList, isLineEnd char = false
  values : ∀ entry ∈ entity.columns.entries, ∀ value ∈ listedValues entry.2,
    ¬ Closes value.toList ∧
      ∀ char ∈ value.toList, isLineEnd char = true → char = '\n' ∨ char = '\r'

theorem propertyLines_typeComment (entity : Entity) : propertyLines (typeComment entity).toList =
    (textLines entity.name.toList).tail.filter propertyMark.isPrefixOf ++
      entity.columns.entries.flatMap fun entry =>
        propertyLines (documentedLine entry.1 entry.2).toList := by
  have hopen : ["/**"].flatMap (fun line => propertyLines line.toList) = [] := by decide
  have hclose : [" */"].flatMap (fun line => propertyLines line.toList) = [] := by decide
  rw [typeComment_eq, propertyLines_unlines, List.flatMap_append, List.flatMap_append, hopen,
    hclose, List.nil_append, List.append_nil, innerLines, List.flatMap_cons,
    propertyLines_titleLine, documentedLines, List.flatMap_map]

/-- A comment is closed by its end exactly if nothing that is written in it closes it. -/
theorem isComment_iff_forall (entity : Entity) : IsComment (typeComment entity).toList ↔
    ¬ Closes entity.name.toList ∧ ∀ entry ∈ entity.columns.entries,
      ¬ Closes entry.1.toList ∧ ∀ value ∈ listedValues entry.2, ¬ Closes value.toList := by
  rw [isComment_typeComment_iff, innerLines, List.forall_mem_cons, closes_titleLine_iff,
    documentedLines, List.forall_mem_map]
  simp only [closes_documentedLine_iff, not_or, not_exists, not_and]

/-- The lines of properties are those of the columns exactly if the name adds none and no column
takes more than one line. -/
theorem propertyLines_eq_iff (entity : Entity) :
    propertyLines (typeComment entity).toList = (documentedLines entity).map String.toList ↔
      (∀ line ∈ (textLines entity.name.toList).tail, ¬ propertyMark <+: line) ∧
      ∀ entry ∈ entity.columns.entries,
        (∀ char ∈ entry.1.toList, isLineEnd char = false) ∧
        ∀ value ∈ listedValues entry.2, ∀ char ∈ value.toList, isLineEnd char = true →
          char = '\n' ∨ char = '\r' := by
  have hname : (textLines entity.name.toList).tail.filter propertyMark.isPrefixOf = [] ↔
      ∀ line ∈ (textLines entity.name.toList).tail, ¬ propertyMark <+: line := by
    simp only [List.filter_eq_nil_iff, List.isPrefixOf_iff_prefix]
  rw [propertyLines_typeComment, documentedLines, List.map_map, ← hname]
  simp only [← forall_documentedLine_iff, ← propertyLines_documentedLine_eq_iff]
  constructor
  · intro hlines
    exact eq_of_append_flatMap_eq_map
      (fun entry _ => propertyLines_documentedLine_ne_nil entry.1 entry.2) hlines
  · rintro ⟨hnone, hentries⟩
    rw [hnone, List.nil_append, List.flatMap_congr hentries, List.map_eq_flatMap]
    rfl

/-- The comment in front of a schema is closed by its end only and has one line for each column, in
their order, exactly if no part of the entity holds a mark that closes comments, no key ends a line,
no listed value ends one by a character without an escape, and no line of the name passes for that
of a property. -/
theorem isDocumented_iff (entity : Entity) : IsDocumented entity ↔ IsHarmless entity := by
  constructor
  · rintro ⟨hcomment, hlines⟩
    obtain ⟨hname, hmarks⟩ := (isComment_iff_forall entity).mp hcomment
    obtain ⟨hnone, hentries⟩ := (propertyLines_eq_iff entity).mp hlines
    exact
      { name := hname
        name_lines := hnone
        keys := fun entry hentry => ⟨(hmarks entry hentry).1, (hentries entry hentry).1⟩
        values := fun entry hentry value hvalue =>
          ⟨(hmarks entry hentry).2 value hvalue, (hentries entry hentry).2 value hvalue⟩ }
  · rintro ⟨hname, hnone, hkeys, hvalues⟩
    refine ⟨(isComment_iff_forall entity).mpr ⟨hname, fun entry hentry => ?_⟩,
      (propertyLines_eq_iff entity).mpr ⟨hnone, fun entry hentry => ?_⟩⟩
    · exact ⟨(hkeys entry hentry).1, fun value hvalue => (hvalues entry hentry value hvalue).1⟩
    · exact ⟨(hkeys entry hentry).2, fun value hvalue => (hvalues entry hentry value hvalue).2⟩

/-- A key that closes the comment. -/
theorem not_isDocumented_closingKey :
    ¬ IsDocumented { Entity.bare "Tokens" "tokens" "tokens" "tokens.ts" with
      columns := OrderedMap.ofList [("*/", Column.unknown)] } := by
  intro hdocumented
  obtain ⟨-, hentries⟩ := (isComment_iff_forall _).mp hdocumented.isComment
  exact (hentries ("*/", Column.unknown) (by decide)).1 (by decide)

end EntityModel.Schema
