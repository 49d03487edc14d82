import EntityModel.Proofs.Column.WellFormed
import EntityModel.Proofs.Column.Declared
import EntityModel.Proofs.Expr.Chain
import EntityModel.Proofs.Literal.Understood
import EntityModel.Proofs.Schema.Quoted
import EntityModel.Syntax.Lowering

/-!
# Defaults that are literals

A default should stand for the same text in a schema as in its source. It does so exactly if the
literal is a string that is understood, or a template without escapes (`Column.keepsDefault_iff`).
-/

namespace EntityModel

/-- The expression that a literal is read as: what a string stands for, and a template as it is
written. -/
def Expr.ofLiteral : List Char → Expr
  | '\x60' :: text => .template (String.ofList text.dropLast)
  | text => .string (Literal.stringValue text)

/-- Whether a node of a syntax tree is a literal, by its kind and its text. -/
structure Syntax.Node.IsLiteral (node : Syntax.Node) (literal : List Char) : Prop where
  text_eq : node.text.toList = literal
  kind_eq : node.kind = if literal.head? = some '\x60' then "template_string" else "string"

namespace Literal

variable {literal : List Char} {units : List Nat}

/-- Whether a literal is written again as one that stands for the same. -/
inductive IsKept : List Char → Prop
  | quoted {quote : Char} {text : List Char} (hquote : quote = '\x22' ∨ quote = '\x27')
      (hunderstood : IsUnderstood text) : IsKept (quote :: (text ++ [quote]))
  | template {text : List Char} (hback : '\\' ∉ text) (hreturn : '\r' ∉ text) :
      IsKept ('\x60' :: (text ++ ['\x60']))

theorem isKept_iff {quote : Char} {text : List Char} : IsKept (quote :: (text ++ [quote])) ↔
    (quote = '\x22' ∨ quote = '\x27') ∧ IsUnderstood text ∨
      quote = '\x60' ∧ '\\' ∉ text ∧ '\r' ∉ text := by
  constructor
  · intro hkept
    generalize hliteral : quote :: (text ++ [quote]) = literal at hkept
    cases hkept with
    | quoted hquote hunderstood =>
        obtain ⟨rfl, heq⟩ := List.cons.inj hliteral
        exact Or.inl ⟨hquote, List.append_cancel_right heq ▸ hunderstood⟩
    | template hback hreturn =>
        obtain ⟨rfl, heq⟩ := List.cons.inj hliteral
        obtain rfl := List.append_cancel_right heq
        exact Or.inr ⟨rfl, hback, hreturn⟩
  · rintro (⟨hquote, hunderstood⟩ | ⟨rfl, hback, hreturn⟩)
    · exact .quoted hquote hunderstood
    · exact .template hback hreturn

/-- The node of a literal is lowered to the expression that the literal is read as, whatever it
consists of. -/
theorem lower_of_isLiteral (hliteral : units? literal = some units) {tree : Syntax.Tree}
    (hnode : tree.head.IsLiteral literal) : tree.lower = .ofLiteral literal := by
  obtain ⟨quote, text, rfl, hquote, -⟩ := units?_eq_some_iff.mp hliteral
  obtain ⟨node, children⟩ := tree
  obtain ⟨htext, hkind⟩ : node.IsLiteral (quote :: (text ++ [quote])) := hnode
  simp only [List.mem_cons, List.not_mem_nil, or_false] at hquote
  rcases hquote with rfl | rfl | rfl
  · simp [Syntax.Part.lowered, hkind, htext, Expr.ofLiteral]
  · simp [Syntax.Part.lowered, hkind, htext, Expr.ofLiteral]
  · simp [Syntax.Part.lowered, hkind, htext, Expr.ofLiteral, unquote]

/-- The default that a literal gives is a text, the same as that of the literal if it is kept. -/
theorem exists_ofArgument_literal (hliteral : units? literal = some units) :
    ∃ value, DefaultValue.ofArgument (some (.ofLiteral literal)) = .string value ∧
      (unitsOf value.toList = units ↔ IsKept literal) := by
  obtain ⟨quote, text, rfl, hquote, hunits⟩ := units?_eq_some_iff.mp hliteral
  simp only [List.mem_cons, List.not_mem_nil, or_false] at hquote
  have hunquote : unquote (quote :: (text ++ [quote])) = text := by
    rcases hquote with rfl | rfl | rfl <;> simp [unquote]
  by_cases htemplate : quote = '\x60'
  · subst htemplate
    refine ⟨String.ofList text, by simp [Expr.ofLiteral, DefaultValue.ofArgument, Expr.unparen], ?_⟩
    rw [String.toList_ofList, isKept_iff, unitsOf_eq_iff hunits]
    simp
  · have hread : Expr.ofLiteral (quote :: (text ++ [quote])) =
        .string (stringValue (quote :: (text ++ [quote]))) := by
      unfold Expr.ofLiteral
      split
      next heq => exact absurd (List.cons.inj heq).1 htemplate
      next => rfl
    refine ⟨_, by rw [hread]; rfl, ?_⟩
    rw [stringValue, hunquote, String.toList_ofList, unitsOf_unescape_eq_iff htemplate hunits,
      isKept_iff]
    have hmark : quote = '\x22' ∨ quote = '\x27' := by simpa [htemplate] using hquote
    simp [hmark, htemplate]

/-! ## Quoted texts -/

theorem insideUnits?_escapeChar_append (char : Char) (text : List Char) :
    insideUnits? '\x27' (Schema.escapeChar char ++ text) =
      (insideUnits? '\x27' text).map (codeUnits char.toNat ++ ·) := by
  have hescaped : ∀ letter char : Char,
      escapeUnits? (letter :: text) = some (codeUnits char.toNat, 1) →
      insideUnits? '\x27' (['\\', letter] ++ text) =
        (insideUnits? '\x27' text).map (codeUnits char.toNat ++ ·) :=
    fun letter char hescape => insideUnits?_cons_of_eq ((if_pos rfl).trans hescape)
  unfold Schema.escapeChar
  split_ifs with hslash hquote hfeed hreturn htab
  · exact hslash ▸ hescaped '\\' '\\' rfl
  · exact hquote ▸ hescaped '\x27' '\x27' rfl
  · exact hfeed ▸ hescaped 'n' '\n' rfl
  · exact hreturn ▸ hescaped 'r' '\r' rfl
  · exact htab ▸ hescaped 't' '\t' rfl
  · have helement : elementUnits? '\x27' char text = some (codeUnits char.toNat, 0) := by
      simp [elementUnits?, bareUnits?, hslash, hquote, hfeed, hreturn]
    exact insideUnits?_cons_of_eq helement

/-- A quoted text stands for the text. -/
theorem units?_quoted (value : String) :
    units? (Schema.quoted value).toList = some (unitsOf value.toList) := by
  have hinside : ∀ text : List Char,
      insideUnits? '\x27' (text.flatMap Schema.escapeChar) = some (unitsOf text) := by
    intro text
    induction text with
    | nil => exact insideUnits?_nil
    | cons char text ih =>
        rw [List.flatMap_cons, insideUnits?_escapeChar_append, ih, unitsOf_cons]
        rfl
  rw [units?_eq_some_iff]
  refine ⟨'\x27', value.toList.flatMap Schema.escapeChar, ?_, by simp, hinside _⟩
  rw [Schema.quoted, Schema.quoteChars, String.toList_ofList]

end Literal

namespace Schema

/-- A schema says the default of a column once, if it has one. -/
theorem mem_columnFields_default_iff {column : Column} {text : String} :
    ("default", text) ∈ columnFields column ↔ column.default.map defaultText = some text := by
  have hmem : ("default", text) ∈ columnFields column ↔
      ("default", text) ∈ optional "default" defaultText column.default := by
    simp [columnFields, not_mem_flag, not_mem_optional]
  rw [hmem]
  cases column.default with
  | none => simp [optional]
  | some value => simp [optional, eq_comm]

end Schema

namespace Column

open Literal

variable {literal : List Char} {units : List Nat}

/-- Whether the default of a column is an argument: `default` is called with it behind a builder,
and no call outside of that gives another default. -/
def HasDefault (property : String) (expr argument : Expr) : Prop :=
  ∃ outer others inner, expr.frames = outer ++ ⟨"default", argument :: others⟩ :: inner ∧
    inner ≠ [] ∧ ∀ call ∈ outer, given? defaultCalls (defaultGiven? property) call = none

/-- Whether a schema says of a column one default, by a literal that stands for some text. -/
def KeepsDefault (column : Column) (units : List Nat) : Prop :=
  ∃ text, (∀ other, ("default", other) ∈ Schema.columnFields column ↔ other = text) ∧
    units? text.toList = some units

/-- A text is written as a literal that stands for it. -/
theorem keepsDefault_iff_unitsOf {column : Column} {value : String}
    (hdefault : column.default = some (.string value)) :
    KeepsDefault column units ↔ unitsOf value.toList = units := by
  have hwritten : ∀ other, ("default", other) ∈ Schema.columnFields column ↔
      other = Schema.quoted value := by
    intro other
    rw [Schema.mem_columnFields_default_iff, hdefault]
    simp [Schema.defaultText, eq_comm]
  constructor
  · rintro ⟨text, htext, hunits⟩
    obtain rfl := (hwritten text).mp ((htext text).mpr rfl)
    rw [units?_quoted] at hunits
    exact Option.some.inj hunits
  · rintro rfl
    exact ⟨Schema.quoted value, hwritten, units?_quoted value⟩

theorem HasDefault.default_ofExpr {property : String} {expr argument : Expr}
    (hdefault : HasDefault property expr argument) (enums : Enumerations) :
    (ofExpr enums property expr).default = some (.ofArgument (some argument.unparen)) := by
  obtain ⟨outer, others, inner, hframes, hinner, houter⟩ := hdefault
  have hne : expr.frames ≠ [] := by simp [hframes]
  have hdrop : expr.frames.dropLast =
      outer ++ ⟨"default", argument :: others⟩ :: inner.dropLast := by
    rw [hframes, List.dropLast_append_of_ne_nil (List.cons_ne_nil _ _),
      List.dropLast_cons_of_ne_nil hinner]
  have houtermost : outermost? defaultCalls (defaultGiven? property) expr.frames.dropLast =
      defaultGiven? property ⟨"default", argument :: others⟩ := by
    rw [hdrop, outermost?, List.findSome?_append, List.findSome?_eq_none_iff.mpr houter,
      Option.none_or, List.findSome?_cons]
    rfl
  rw [ofExpr_eq_declared enums property hne]
  exact houtermost

/-- The node of a literal is lowered to what the literal is read as. A default that it gives is a
text, and a schema keeps what the literal stands for exactly if the literal is a string that is
understood or a template without escapes and carriage returns. -/
theorem keepsDefault_iff (hliteral : units? literal = some units) :
    (∀ tree : Syntax.Tree, tree.head.IsLiteral literal → tree.lower = .ofLiteral literal) ∧
    ∀ enums property expr argument, HasDefault property expr argument →
      argument.unparen = .ofLiteral literal →
        (∃ value, (ofExpr enums property expr).default = some (.string value)) ∧
        (KeepsDefault (ofExpr enums property expr) units ↔ IsKept literal) := by
  constructor
  · intro tree hnode
    exact lower_of_isLiteral hliteral hnode
  · intro enums property expr argument hdefault hargument
    obtain ⟨value, hvalue, hkept⟩ := exists_ofArgument_literal hliteral
    have hcolumn := hdefault.default_ofExpr enums
    rw [hargument, hvalue] at hcolumn
    exact ⟨⟨value, hcolumn⟩, by rw [keepsDefault_iff_unitsOf hcolumn, hkept]⟩

theorem units?_twoLines {quote : Char} (hquote : quote = '\x27' ∨ quote = '\x60') :
    units? (quote :: ("a\\nb".toList ++ [quote])) = some [97, 10, 98] := by
  have hend : insideUnits? quote ['b'] = some [98] :=
    insideUnits?_cons_eq_some_iff.mpr
      ⟨[98], 0, [], by rcases hquote with rfl | rfl <;> rfl, insideUnits?_nil, rfl⟩
  have hfeed : insideUnits? quote ['\\', 'n', 'b'] = some [10, 98] :=
    insideUnits?_cons_eq_some_iff.mpr ⟨[10], 1, [98], rfl, hend, rfl⟩
  have hinside : insideUnits? quote ['a', '\\', 'n', 'b'] = some [97, 10, 98] :=
    insideUnits?_cons_eq_some_iff.mpr
      ⟨[97], 0, [10, 98], by rcases hquote with rfl | rfl <;> rfl, hfeed, rfl⟩
  refine units?_eq_some_iff.mpr ⟨quote, "a\\nb".toList, rfl, ?_, hinside⟩
  rcases hquote with rfl | rfl <;> decide

/-- Two lines in a string, behind a builder and in front of another call. -/
theorem keepsDefault_string :
    let literal := "'a\\nb'".toList
    let tree : Syntax.Tree :=
      .node ⟨"string", none, "'a\\nb'", 0, 0, true, false, false, false, false⟩ []
    let body : Expr := (Expr.call (.ident "text") []).callAll
      [⟨"default", [tree.lower]⟩, ⟨"notNull", []⟩]
    units? literal = some [97, 10, 98] ∧ tree.lower = .ofLiteral literal ∧
      HasDefault "body" body tree.lower ∧
      KeepsDefault (ofExpr .empty "body" body) [97, 10, 98] := by
  intro literal tree body
  have hliteral : units? literal = some [97, 10, 98] := units?_twoLines (Or.inl rfl)
  have hunderstood : IsUnderstood "a\\nb".toList := by
    have hfeed : Spells ['\\', 'n'] '\n' := .letter (by decide)
    exact .spelled (.raw (by decide : 'a' ≠ '\\')) (by decide) <|
      .spelled hfeed (by decide) <| .spelled (.raw (by decide : 'b' ≠ '\\')) (by decide) .nil
  have hdefault : HasDefault "body" body tree.lower :=
    ⟨[⟨"notNull", []⟩], [], [⟨"text", []⟩], rfl, List.cons_ne_nil _ _, by decide⟩
  obtain ⟨hread, hwrite⟩ := keepsDefault_iff hliteral
  have hlower : tree.lower = .ofLiteral literal := hread tree ⟨rfl, rfl⟩
  have hbare : tree.lower.unparen = .ofLiteral literal := by
    rw [hlower]
    rfl
  exact ⟨hliteral, hlower, hdefault,
    (hwrite .empty "body" body _ hdefault hbare).2.mpr (.quoted (Or.inr rfl) hunderstood)⟩

/-- Two lines in a template are written as one, with the escape in it. -/
theorem not_keepsDefault_template :
    let literal := "\x60a\\nb\x60".toList
    let body : Expr := (Expr.call (.ident "text") []).callAll [⟨"default", [.ofLiteral literal]⟩]
    units? literal = some [97, 10, 98] ∧ HasDefault "body" body (.ofLiteral literal) ∧
      ¬ KeepsDefault (ofExpr .empty "body" body) [97, 10, 98] := by
  intro literal body
  refine ⟨units?_twoLines (Or.inr rfl), ⟨[], [], [⟨"text", []⟩], rfl, List.cons_ne_nil _ _, nofun⟩,
    fun hkeeps => ?_⟩
  have hdefault : (ofExpr .empty "body" body).default = some (.string "a\\nb") := rfl
  have hunits := (keepsDefault_iff_unitsOf hdefault).mp hkeeps
  exact absurd hunits (by decide)

end Column

end EntityModel
