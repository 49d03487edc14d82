import EntityModel.Proofs.Schema.Fields
import EntityModel.Schema.Declaration

/-!
# Reading schemas

The text of a schema says one thing only: what it says of an entity can be read back from it, line
by line and by indentation. The name of the entity stands in the first line as it is, line feeds
included, so the lines to read start behind the last line that opens a schema.
-/

namespace EntityModel.Schema

/-- What a schema says of an entity, apart from how it is laid out. -/
structure Outline where
  name : String
  tableName : String
  columns : List (String × List Field)
  relations : List (String × List Field)
  indices : List (List Field)
deriving DecidableEq

namespace Outline

def ofEntity (entity : Entity) : Outline where
  name := entity.name
  tableName := entity.tableName
  columns := entity.columns.entries.map fun (property, column) => (property, columnFields column)
  relations := entity.relations.map fun relation =>
    (relation.localName, relationFields relation)
  indices := entity.indices.map indexFields

/-! ## Reading -/

/-- The field on a line, without the blanks in front of it. -/
def readField (text : List Char) : Field :=
  (String.ofList (text.takeWhile (· ≠ ':')),
    String.ofList (((text.dropWhile (· ≠ ':')).drop 2).dropLast))

/-- A member that was read: how it opens, and its fields. -/
abbrev Member := List Char × List Field

/-- What was read of the lines from one on: fields whose member opens further up, members whose
part opens further up, and parts. -/
structure Rest where
  fields : List Field
  members : List Member
  parts : List (List Char × List Member)

def closes (text : List Char) : Bool :=
  text.head? = some '\x7d' || text.head? = some ']'

/-- Reads the line in front of others. Its indentation tells what it opens. -/
def Rest.readLine (line : List Char) (rest : Rest) : Rest :=
  match line with
  | ' ' :: ' ' :: ' ' :: ' ' :: ' ' :: ' ' :: text =>
    { rest with fields := readField text :: rest.fields }
  | ' ' :: ' ' :: ' ' :: ' ' :: text =>
    if closes text then rest
    else { rest with fields := [], members := (text, rest.fields) :: rest.members }
  | ' ' :: ' ' :: text =>
    if closes text then rest else ⟨[], [], (text, rest.members) :: rest.parts⟩
  | _ => rest

/-- Whether a line opens a schema. -/
def opens (line : List Char) : Bool := ['(', '\x7b'].isSuffixOf line

/-- The lines behind the last one that opens a schema. -/
def bodyOf (lines : List (List Char)) : List (List Char) :=
  (lines.reverse.takeWhile fun line => !opens line).reverse

def readKeys (members : List Member) : List (String × List Field) :=
  members.map fun (opening, fields) =>
    (Literal.stringValue (opening.take (opening.length - 3)), fields)

/-- What the text of a schema says, if it is one. -/
def ofText? (text : String) : Option Outline :=
  match ((bodyOf (text.toList.splitOn '\n')).foldr Rest.readLine ⟨[], [], []⟩).parts with
  | (name, _) :: (tableName, _) :: (_, columns) :: others => some {
      name := Literal.stringValue (name.drop 6).dropLast
      tableName := Literal.stringValue (tableName.drop 11).dropLast
      columns := readKeys columns
      relations := readKeys ((others.lookup "relations: \x7b".toList).getD [])
      indices := ((others.lookup "indices: [".toList).getD []).map Prod.snd }
  | _ => none

/-! ## Reading one line -/

/-- Whether a text behind blanks opens something: it starts with no blank and closes nothing. -/
def IsOpening (text : List Char) : Prop :=
  ∃ first rest, text = first :: rest ∧ first ≠ ' ' ∧ closes text = false

theorem isOpening_objectKey (key : String) : IsOpening (objectKey key ++ ": \x7b").toList := by
  obtain ⟨first, rest, hchars, hfirst⟩ := exists_objectKey_eq key
  refine ⟨first, rest ++ ": \x7b".toList, by simp [hchars], ?_⟩
  rcases hfirst with hkey | rfl
  · have hbrace : first ≠ '\x7d' := ne_of_isKeyChar hkey rfl
    have hbracket : first ≠ ']' := ne_of_isKeyChar hkey rfl
    exact ⟨ne_of_isKeyChar hkey rfl, by simp [closes, hchars, hbrace, hbracket]⟩
  · exact ⟨by decide, by simp [closes, hchars]⟩

theorem readField_line {field : Field} (hfield : IsOneLine field) :
    readField (field.1 ++ ": " ++ field.2 ++ ",").toList = field := by
  -- The name has no colon, so it ends at the first one, whatever the value contains.
  have hname : ∀ char ∈ field.1.toList, (decide (char ≠ ':')) = true := by
    intro char hmem
    have hne : char ≠ ':' := by
      rintro rfl
      exact hfield.name.1 hmem
    exact decide_eq_true hne
  have hchars : (field.1 ++ ": " ++ field.2 ++ ",").toList =
      field.1.toList ++ ':' :: ' ' :: (field.2.toList ++ [',']) := by simp
  rw [readField, hchars, List.takeWhile_append_of_pos hname, List.dropWhile_append_of_pos hname]
  simp

/-- What is read of members. -/
def asRead (members : List (String × List Field)) : List Member :=
  members.map fun (opening, fields) => ((opening ++ "\x7b").toList, fields)

/-- What is read of a part that is left out if it has no members. -/
def partAsRead (title : String) (members : List (String × List Field)) :
    List (List Char × List Member) :=
  if members = [] then [] else [(title.toList, asRead members)]

def blocks (members : List (String × List Field)) : List (List String) :=
  members.map fun (opening, fields) => memberLines opening fields

/-- Whether members can be read line by line. -/
def IsReadable (members : List (String × List Field)) : Prop :=
  ∀ member ∈ members, IsOpening (member.1 ++ "\x7b").toList ∧
    ∀ field ∈ member.2, IsOneLine field

namespace Rest

theorem readLine_field {field : Field} (hfield : IsOneLine field) (rest : Rest) :
    rest.readLine ("      " ++ field.1 ++ ": " ++ field.2 ++ ",").toList =
      { rest with fields := field :: rest.fields } := by
  have hchars : ("      " ++ field.1 ++ ": " ++ field.2 ++ ",").toList =
      ' ' :: ' ' :: ' ' :: ' ' :: ' ' :: ' ' ::
        (field.1 ++ ": " ++ field.2 ++ ",").toList := by simp
  rw [hchars, readLine, readField_line hfield]

theorem readLine_member {text : List Char} (hopening : IsOpening text) (rest : Rest) :
    rest.readLine (' ' :: ' ' :: ' ' :: ' ' :: text) =
      { rest with fields := [], members := (text, rest.fields) :: rest.members } := by
  obtain ⟨first, others, rfl, hblank, hcloses⟩ := hopening
  rw [readLine]
  · rw [if_neg (by simp [hcloses])]
  · rintro text heq
    simp_all

theorem readLine_part {text : List Char} (hopening : IsOpening text) (rest : Rest) :
    rest.readLine (' ' :: ' ' :: text) = ⟨[], [], (text, rest.members) :: rest.parts⟩ := by
  obtain ⟨first, others, rfl, hblank, hcloses⟩ := hopening
  rw [readLine]
  · rw [if_neg (by simp [hcloses])]
  · rintro text heq
    simp_all
  · rintro text heq
    simp_all

/-! ## Reading the lines of a schema -/

/-- Reads lines in front of others. -/
def read (lines : List String) (rest : Rest) : Rest :=
  lines.foldr (fun line => readLine line.toList) rest

theorem read_append (first second : List String) (rest : Rest) :
    read (first ++ second) rest = read first (read second rest) := List.foldr_append

theorem read_cons (line : String) (lines : List String) (rest : Rest) :
    read (line :: lines) rest = (read lines rest).readLine line.toList := rfl

theorem read_fieldLines {fields : List Field} (hfields : ∀ field ∈ fields, IsOneLine field)
    (rest : Rest) :
    read (fieldLines fields) rest = { rest with fields := fields ++ rest.fields } := by
  induction fields with
  | nil => rfl
  | cons field fields ih =>
      rw [List.forall_mem_cons] at hfields
      change (read (fieldLines fields) rest).readLine _ = _
      rw [ih hfields.2, readLine_field hfields.1]
      rfl

theorem read_memberLines {opening : String} {fields : List Field}
    (hopening : IsOpening (opening ++ "\x7b").toList) (hfields : ∀ field ∈ fields, IsOneLine field)
    (members : List Member) (parts : List (List Char × List Member)) :
    read (memberLines opening fields) ⟨[], members, parts⟩ =
      ⟨[], ((opening ++ "\x7b").toList, fields) :: members, parts⟩ := by
  have hclose : read ["    \x7d,"] ⟨[], members, parts⟩ = ⟨[], members, parts⟩ := rfl
  have hline : ("    " ++ opening ++ "\x7b").toList =
      ' ' :: ' ' :: ' ' :: ' ' :: (opening ++ "\x7b").toList := by simp
  rw [memberLines, List.cons_append, read_cons, read_append, hclose, read_fieldLines hfields, hline,
    readLine_member hopening, List.append_nil]

theorem read_members {members : List (String × List Field)} (hmembers : IsReadable members)
    (parts : List (List Char × List Member)) :
    read (blocks members).flatten ⟨[], [], parts⟩ = ⟨[], asRead members, parts⟩ := by
  induction members with
  | nil => rfl
  | cons member members ih =>
      obtain ⟨⟨hopening, hfields⟩, hmembers⟩ := List.forall_mem_cons.mp hmembers
      rw [blocks, List.map_cons, List.flatten_cons, read_append, ← blocks, ih hmembers,
        read_memberLines hopening hfields]
      rfl

theorem read_partLines {title closing : String} {members : List (String × List Field)}
    (hmembers : IsReadable members) (htitle : IsOpening title.toList)
    (parts : List (List Char × List Member))
    (hclosing : read [closing] ⟨[], [], parts⟩ = ⟨[], [], parts⟩) :
    read (partLines ("  " ++ title) closing (blocks members)) ⟨[], [], parts⟩ =
      ⟨[], [], partAsRead title members ++ parts⟩ := by
  by_cases hnone : members = []
  · subst hnone
    rfl
  · have hblocks : (blocks members).isEmpty = false := by simpa [blocks] using hnone
    have hline : ("  " ++ title).toList = ' ' :: ' ' :: title.toList := by simp
    rw [partLines, if_neg (by simp [hblocks]), partAsRead, if_neg hnone, List.cons_append,
      read_cons, read_append, hclosing, read_members hmembers, hline, readLine_part htitle]
    rfl

end Rest

/-! ## The lines of an outline -/

def keyed (members : List (String × List Field)) : List (String × List Field) :=
  members.map fun (key, fields) => (objectKey key ++ ": ", fields)

def unkeyed (members : List (List Field)) : List (String × List Field) :=
  members.map fun fields => ("", fields)

/-- The lines of a schema behind the first. -/
def bodyLines (outline : Outline) : List String :=
  ["  name: " ++ quoted outline.name ++ ",",
    "  tableName: " ++ quoted outline.tableName ++ ",",
    "  columns: \x7b"] ++
  (blocks (keyed outline.columns)).flatten ++ ["  \x7d,"] ++
  partLines "  relations: \x7b" "  \x7d," (blocks (keyed outline.relations)) ++
  partLines "  indices: [" "  ]," (blocks (unkeyed outline.indices)) ++
  ["\x7d);"]

theorem entityLines_eq (entity : Entity) :
    entityLines entity =
      ("export const " ++ entity.name ++ "Entity = new EntitySchema(\x7b") ::
        (ofEntity entity).bodyLines := by
  simp [entityLines, bodyLines, ofEntity, blocks, keyed, unkeyed, Function.comp_def]

/-- Whether all fields of an outline are single lines. -/
structure IsWritten (outline : Outline) : Prop where
  columns : ∀ member ∈ outline.columns, ∀ field ∈ member.2, IsOneLine field
  relations : ∀ member ∈ outline.relations, ∀ field ∈ member.2, IsOneLine field
  indices : ∀ fields ∈ outline.indices, ∀ field ∈ fields, IsOneLine field

theorem isWritten_ofEntity (entity : Entity) : (ofEntity entity).IsWritten where
  columns := List.forall_mem_map.mpr fun entry _ => isOneLine_columnFields entry.2
  relations := List.forall_mem_map.mpr fun relation _ => isOneLine_relationFields relation
  indices := List.forall_mem_map.mpr fun index _ => isOneLine_indexFields index

theorem isReadable_keyed {members : List (String × List Field)}
    (hmembers : ∀ member ∈ members, ∀ field ∈ member.2, IsOneLine field) :
    IsReadable (keyed members) := by
  refine List.forall_mem_map.mpr fun member hmem => ⟨?_, hmembers member hmem⟩
  simpa [String.append_assoc] using isOpening_objectKey member.1

theorem isReadable_unkeyed {members : List (List Field)}
    (hmembers : ∀ fields ∈ members, ∀ field ∈ fields, IsOneLine field) :
    IsReadable (unkeyed members) := by
  have hopening : IsOpening ("" ++ "\x7b").toList := ⟨'\x7b', [], by decide, by decide, by decide⟩
  exact List.forall_mem_map.mpr fun fields hmem => ⟨hopening, hmembers fields hmem⟩

theorem readKeys_asRead_keyed (members : List (String × List Field)) :
    readKeys (asRead (keyed members)) = members := by
  simp [readKeys, asRead, keyed, Function.comp_def, stringValue_objectKey]

theorem map_snd_asRead_unkeyed (members : List (List Field)) :
    (asRead (unkeyed members)).map Prod.snd = members := by
  simp [asRead, unkeyed, Function.comp_def]

/-- The parts that are read of an outline behind its columns. -/
def otherParts (outline : Outline) : List (List Char × List Member) :=
  partAsRead "relations: \x7b" (keyed outline.relations) ++
    partAsRead "indices: [" (unkeyed outline.indices)

theorem read_otherParts {outline : Outline} (hwritten : outline.IsWritten) :
    Rest.read (partLines "  relations: \x7b" "  \x7d," (blocks (keyed outline.relations)) ++
      (partLines "  indices: [" "  ]," (blocks (unkeyed outline.indices)) ++ ["\x7d);"]))
      ⟨[], [], []⟩ = ⟨[], [], outline.otherParts⟩ := by
  have hend : Rest.read ["\x7d);"] ⟨[], [], []⟩ = ⟨[], [], []⟩ := rfl
  have hindices : Rest.read (partLines ("  " ++ "indices: [") "  ],"
      (blocks (unkeyed outline.indices))) ⟨[], [], []⟩ =
      ⟨[], [], partAsRead "indices: [" (unkeyed outline.indices) ++ []⟩ :=
    Rest.read_partLines (isReadable_unkeyed hwritten.indices)
      ⟨'i', "ndices: [".toList, by decide, by decide, by decide⟩ [] rfl
  have hrelations : ∀ parts, Rest.read (partLines ("  " ++ "relations: \x7b") "  \x7d,"
      (blocks (keyed outline.relations))) ⟨[], [], parts⟩ =
      ⟨[], [], partAsRead "relations: \x7b" (keyed outline.relations) ++ parts⟩ := fun parts =>
    Rest.read_partLines (isReadable_keyed hwritten.relations)
      ⟨'r', "elations: \x7b".toList, by decide, by decide, by decide⟩ parts rfl
  rw [List.append_nil] at hindices
  rw [Rest.read_append, Rest.read_append, hend]
  exact (congrArg _ hindices).trans (hrelations _)

theorem parts_read_bodyLines {outline : Outline} (hwritten : outline.IsWritten) :
    (Rest.read outline.bodyLines ⟨[], [], []⟩).parts =
      (("name: " ++ quoted outline.name ++ ",").toList, []) ::
      (("tableName: " ++ quoted outline.tableName ++ ",").toList, []) ::
      ("columns: \x7b".toList, asRead (keyed outline.columns)) :: outline.otherParts := by
  have hclose : Rest.read ["  \x7d,"] ⟨[], [], outline.otherParts⟩ =
      ⟨[], [], outline.otherParts⟩ := rfl
  have hcolumns : ∀ rest : Rest, rest.readLine "  columns: \x7b".toList =
      ⟨[], [], ("columns: \x7b".toList, rest.members) :: rest.parts⟩ :=
    Rest.readLine_part ⟨'c', "olumns: \x7b".toList, by decide, by decide, by decide⟩
  have htable : IsOpening ("tableName: " ++ quoted outline.tableName ++ ",").toList :=
    ⟨'t', ("ableName: " ++ quoted outline.tableName ++ ",").toList, by simp, by decide,
      by simp [closes]⟩
  have hname : IsOpening ("name: " ++ quoted outline.name ++ ",").toList :=
    ⟨'n', ("ame: " ++ quoted outline.name ++ ",").toList, by simp, by decide, by simp [closes]⟩
  have htableLine : ("  tableName: " ++ quoted outline.tableName ++ ",").toList =
      ' ' :: ' ' :: ("tableName: " ++ quoted outline.tableName ++ ",").toList := by simp
  have hnameLine : ("  name: " ++ quoted outline.name ++ ",").toList =
      ' ' :: ' ' :: ("name: " ++ quoted outline.name ++ ",").toList := by simp
  simp only [bodyLines, List.append_assoc]
  rw [List.cons_append, List.cons_append, List.cons_append, List.nil_append,
    Rest.read_cons, Rest.read_cons, Rest.read_cons, Rest.read_append, Rest.read_append,
    read_otherParts hwritten, hclose, Rest.read_members (isReadable_keyed hwritten.columns),
    hcolumns, htableLine, Rest.readLine_part htable, hnameLine, Rest.readLine_part hname]

theorem lookup_relations_otherParts (outline : Outline) :
    (outline.otherParts.lookup "relations: \x7b".toList).getD [] =
      asRead (keyed outline.relations) := by
  have hother : ("relations: \x7b".toList == "indices: [".toList) = false := by decide
  unfold otherParts partAsRead
  split_ifs with hrelations hindices
  · rw [hrelations]; rfl
  · rw [hrelations, List.nil_append, List.lookup_cons, hother]; rfl
  · rw [List.singleton_append, List.lookup_cons_self]; rfl
  · rw [List.singleton_append, List.lookup_cons_self]; rfl

theorem lookup_indices_otherParts (outline : Outline) :
    (outline.otherParts.lookup "indices: [".toList).getD [] =
      asRead (unkeyed outline.indices) := by
  have hother : ("indices: [".toList == "relations: \x7b".toList) = false := by decide
  unfold otherParts partAsRead
  split_ifs with hrelations hindices hindices
  · rw [hindices]; rfl
  · rw [List.nil_append, List.lookup_cons_self]; rfl
  · rw [hindices, List.append_nil, List.lookup_cons, hother]; rfl
  · rw [List.singleton_append, List.lookup_cons, hother, List.lookup_cons_self]; rfl

/-! ## Finding the body of a schema -/

/-- Whether a text is a line of its own that opens no schema. -/
structure IsBodyLine (line : String) : Prop where
  newline_not_mem : '\n' ∉ line.toList
  opens_eq : opens line.toList = false

theorem isBodyLine_of_last {line : String} (front : List Char) (last : Char)
    (hline : line.toList = front ++ [last]) (hnewline : '\n' ∉ front)
    (hlast : last ≠ '\n' ∧ last ≠ '\x7b') : IsBodyLine line where
  newline_not_mem := by simp [hline, hnewline, hlast.1.symm]
  opens_eq := by simp [hline, opens, List.isSuffixOf, List.isPrefixOf, hlast.2.symm]

theorem isBodyLine_of_blank {line : String} (front : List Char)
    (hline : line.toList = front ++ [' ', '\x7b']) (hnewline : '\n' ∉ front) :
    IsBodyLine line where
  newline_not_mem := by simp [hline, hnewline]
  opens_eq := by simp [hline, opens, List.isSuffixOf, List.isPrefixOf]

theorem isBodyLine_fieldLines {fields : List Field}
    (hfields : ∀ field ∈ fields, IsOneLine field) :
    ∀ line ∈ fieldLines fields, IsBodyLine line := by
  refine List.forall_mem_map.mpr fun field hmem => ?_
  have hfield := hfields field hmem
  refine isBodyLine_of_last ("      " ++ field.1 ++ ": " ++ field.2).toList ',' (by simp) ?_
    (by decide)
  simp [hfield.name.2, hfield.newline_not_mem]

theorem isBodyLine_memberLines {opening : String} {fields : List Field}
    (hopening : IsBodyLine ("    " ++ opening ++ "\x7b"))
    (hfields : ∀ field ∈ fields, IsOneLine field) :
    ∀ line ∈ memberLines opening fields, IsBodyLine line := by
  have hclosing : IsBodyLine "    \x7d," := ⟨by decide, by decide⟩
  simp only [memberLines, List.cons_append, List.forall_mem_cons, List.forall_mem_append]
  exact ⟨hopening, isBodyLine_fieldLines hfields, hclosing, List.forall_mem_nil _⟩

theorem isBodyLine_keyed {members : List (String × List Field)}
    (hmembers : ∀ member ∈ members, ∀ field ∈ member.2, IsOneLine field) :
    ∀ block ∈ blocks (keyed members), ∀ line ∈ block, IsBodyLine line := by
  simp only [blocks, keyed, List.map_map, List.forall_mem_map]
  intro member hmem
  refine isBodyLine_memberLines (isBodyLine_of_blank
    ("    " ++ objectKey member.1 ++ ":").toList (by simp) ?_) (hmembers member hmem)
  simp [newline_not_mem_objectKey]

theorem isBodyLine_unkeyed {members : List (List Field)}
    (hmembers : ∀ fields ∈ members, ∀ field ∈ fields, IsOneLine field) :
    ∀ block ∈ blocks (unkeyed members), ∀ line ∈ block, IsBodyLine line := by
  have hopening : IsBodyLine ("    " ++ "" ++ "\x7b") := ⟨by decide, by decide⟩
  simp only [blocks, unkeyed, List.map_map, List.forall_mem_map]
  exact fun fields hmem => isBodyLine_memberLines hopening (hmembers fields hmem)

theorem isBodyLine_partLines {title closing : String} {members : List (List String)}
    (htitle : IsBodyLine title) (hclosing : IsBodyLine closing)
    (hmembers : ∀ block ∈ members, ∀ line ∈ block, IsBodyLine line) :
    ∀ line ∈ partLines title closing members, IsBodyLine line := by
  unfold partLines
  split
  · exact List.forall_mem_nil _
  · simp only [List.cons_append, List.forall_mem_cons, List.forall_mem_append,
      List.forall_mem_flatten]
    exact ⟨htitle, hmembers, hclosing, List.forall_mem_nil _⟩

theorem isBodyLine_bodyLines {outline : Outline} (hwritten : outline.IsWritten) :
    ∀ line ∈ outline.bodyLines, IsBodyLine line := by
  have hname : IsBodyLine ("  name: " ++ quoted outline.name ++ ",") :=
    isBodyLine_of_last ("  name: " ++ quoted outline.name).toList ',' (by simp)
      (by simp [newline_not_mem_quoted]) (by decide)
  have htable : IsBodyLine ("  tableName: " ++ quoted outline.tableName ++ ",") :=
    isBodyLine_of_last ("  tableName: " ++ quoted outline.tableName).toList ',' (by simp)
      (by simp [newline_not_mem_quoted]) (by decide)
  have hcolumns : IsBodyLine "  columns: \x7b" := ⟨by decide, by decide⟩
  have hclosing : IsBodyLine "  \x7d," := ⟨by decide, by decide⟩
  have hend : IsBodyLine "\x7d);" := ⟨by decide, by decide⟩
  have htitle : IsBodyLine "  relations: \x7b" := ⟨by decide, by decide⟩
  have htitle' : IsBodyLine "  indices: [" := ⟨by decide, by decide⟩
  have hclosing' : IsBodyLine "  ]," := ⟨by decide, by decide⟩
  have hrelations := isBodyLine_partLines htitle hclosing (isBodyLine_keyed hwritten.relations)
  have hindices := isBodyLine_partLines htitle' hclosing' (isBodyLine_unkeyed hwritten.indices)
  simp only [bodyLines, List.forall_mem_append, List.forall_mem_cons, List.forall_mem_flatten]
  exact ⟨⟨⟨⟨⟨⟨hname, htable, hcolumns, List.forall_mem_nil _⟩, isBodyLine_keyed hwritten.columns⟩,
    hclosing, List.forall_mem_nil _⟩, hrelations⟩, hindices⟩, hend, List.forall_mem_nil _⟩

/-- The lines of a text whose lines end in line feeds, the empty one behind the last included. -/
theorem splitOn_unlines {lines : List String} (hlines : ∀ line ∈ lines, '\n' ∉ line.toList) :
    (Text.unlines lines).toList.splitOn '\n' = lines.map String.toList ++ [[]] := by
  induction lines with
  | nil => rfl
  | cons line lines ih =>
      rw [List.forall_mem_cons] at hlines
      have hchars : (Text.unlines (line :: lines)).toList =
          line.toList ++ '\n' :: (Text.unlines lines).toList := by simp [Text.unlines]
      rw [hchars, List.splitOn_append_cons_self_of_not_mem hlines.1, ih hlines.2]
      rfl

/-- The last line of a text ends as the text does. -/
theorem exists_splitOn_append (text : List Char) {ending : List Char} (hending : '\n' ∉ ending) :
    ∃ front last, (text ++ ending).splitOn '\n' = front ++ [last ++ ending] := by
  induction text with
  | nil => exact ⟨[], [], List.splitOn_eq_singleton hending⟩
  | cons char text ih =>
      obtain ⟨front, last, hsplit⟩ := ih
      rw [List.cons_append, List.splitOn_cons_eq_if_modifyHead, hsplit]
      split
      · exact ⟨[] :: front, last, rfl⟩
      · cases front with
        | nil => exact ⟨[], char :: last, rfl⟩
        | cons first front => exact ⟨(char :: first) :: front, last, rfl⟩

theorem bodyOf_append_cons {front body : List (List Char)} {opening : List Char}
    (hopening : opens opening = true) (hbody : ∀ line ∈ body, opens line = false) :
    bodyOf (front ++ opening :: body) = body := by
  have hreverse : ∀ line ∈ body.reverse, (!opens line) = true := by
    simpa using hbody
  rw [bodyOf, List.reverse_append, List.reverse_cons, List.append_assoc,
    List.takeWhile_append_of_pos hreverse, List.singleton_append,
    List.takeWhile_cons_of_neg (by simp [hopening]), List.append_nil, List.reverse_reverse]

theorem bodyOf_entityText (entity : Entity) :
    bodyOf ((entityText entity).toList.splitOn '\n') =
      (ofEntity entity).bodyLines.map String.toList ++ [[]] := by
  have hbody := isBodyLine_bodyLines (isWritten_ofEntity entity)
  have hchars : (entityText entity).toList =
      (("export const " ++ entity.name).toList ++ "Entity = new EntitySchema(\x7b".toList) ++
        '\n' :: (Text.unlines (ofEntity entity).bodyLines).toList := by
    simp [entityText, entityLines_eq, Text.unlines]
  -- The name of the entity may contain line feeds; the last of its lines opens the schema.
  have hending : '\n' ∉ "Entity = new EntitySchema(\x7b".toList := by decide
  obtain ⟨front, last, hsplit⟩ :=
    exists_splitOn_append ("export const " ++ entity.name).toList hending
  have hopening : opens (last ++ "Entity = new EntitySchema(\x7b".toList) = true := by
    have hsuffix : ['(', '\x7b'] <:+ "Entity = new EntitySchema(\x7b".toList := by decide
    exact List.isSuffixOf_iff_suffix.mpr (hsuffix.trans (List.suffix_append _ _))
  rw [hchars, List.splitOn_append_cons_self, hsplit,
    splitOn_unlines fun line hmem => (hbody line hmem).newline_not_mem, List.append_assoc,
    List.singleton_append]
  refine bodyOf_append_cons hopening ?_
  simp only [List.forall_mem_append, List.forall_mem_map, List.forall_mem_singleton]
  exact ⟨fun line hmem => (hbody line hmem).opens_eq, rfl⟩

/-! ## What a schema says is what it was written from -/

theorem ofText?_entityText (entity : Entity) :
    ofText? (entityText entity) = some (ofEntity entity) := by
  -- The empty line behind the last line feed says nothing.
  have hread : ((ofEntity entity).bodyLines.map String.toList ++ [[]]).foldr Rest.readLine
      ⟨[], [], []⟩ = Rest.read (ofEntity entity).bodyLines ⟨[], [], []⟩ := by
    rw [List.foldr_append, List.foldr_map]
    rfl
  have hname : ∀ name, Literal.stringValue
      ((("name: " ++ quoted name ++ ",").toList.drop 6).dropLast) = name := by
    simp [stringValue_quoted]
  have htable : ∀ name, Literal.stringValue
      ((("tableName: " ++ quoted name ++ ",").toList.drop 11).dropLast) = name := by
    simp [stringValue_quoted]
  rw [ofText?, bodyOf_entityText, hread, parts_read_bodyLines (isWritten_ofEntity entity)]
  simp only [hname, htable, readKeys_asRead_keyed, lookup_relations_otherParts,
    lookup_indices_otherParts, map_snd_asRead_unkeyed]

theorem entityText_eq_of_ofEntity_eq {first second : Entity}
    (heq : ofEntity first = ofEntity second) : entityText first = entityText second := by
  have hname : first.name = second.name := congrArg name heq
  rw [entityText, entityText, entityLines_eq, entityLines_eq, heq, hname]

end Outline

/-- The text of a schema is unambiguous: what it says of the entity can be read back from it,
whatever characters the entity is written with, so that entities have the same text exactly if
their schemas say the same of them. -/
theorem entityText_unambiguous :
    (∀ entity, Outline.ofText? (entityText entity) = some (Outline.ofEntity entity)) ∧
      ∀ first second, entityText first = entityText second ↔
        Outline.ofEntity first = Outline.ofEntity second := by
  refine ⟨Outline.ofText?_entityText, fun first second => ?_⟩
  refine ⟨fun htext => ?_, Outline.entityText_eq_of_ofEntity_eq⟩
  have hread := congrArg Outline.ofText? htext
  rw [Outline.ofText?_entityText, Outline.ofText?_entityText] at hread
  exact Option.some.inj hread

end EntityModel.Schema
