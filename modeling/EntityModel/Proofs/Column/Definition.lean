import EntityModel.Column.Reading
import EntityModel.Proofs.Collection.OrderedMap
import EntityModel.Proofs.Expr.Chain

/-!
# Definitions of columns

The columns of a table are defined by an object, or by a function that returns one. Every property
has one column, at the place of its first entry and as its last entry declares it. A function is
given builders to call, so the first call of an entry may be made on anything that is no call
itself (`onReceiver`): the columns are the same.
-/

namespace EntityModel

namespace Expr

mutual

/-- An expression with the first call of its chain made on a receiver, if it is that of an
identifier. -/
def onReceiver : Expr → (receiver : Expr) → Expr
  | .paren inner, receiver => .paren (inner.onReceiver receiver)
  | .call callee args, receiver => .call (callee.calleeOn receiver) args
  | expr, _ => expr

/-- What is called in a call whose chain starts on a receiver. -/
def calleeOn : Expr → (receiver : Expr) → Expr
  | .paren inner, receiver => .paren (inner.calleeOn receiver)
  | .ident name, receiver => .member receiver name
  | .member target property, receiver => .member (target.onReceiver receiver) property
  | callee, _ => callee

end

mutual

/-- What the first call is made on is no part of a chain, unless it is a call itself. -/
theorem frames_onReceiver {receiver : Expr} (hreceiver : receiver.frames = []) :
    ∀ expr : Expr, (expr.onReceiver receiver).frames = expr.frames
  | .paren inner => by rw [onReceiver, frames, frames_onReceiver hreceiver inner, frames]
  | .call callee args => by rw [onReceiver, frames, calleeFrames_calleeOn hreceiver args, frames]
  | .string _ | .number _ | .boolean _ | .null | .array _ | .object _ | .tagged _ _ | .template _
  | .member _ _ | .ident _ | .arrow _ _ | .other _ => rfl

theorem calleeFrames_calleeOn {receiver : Expr} (hreceiver : receiver.frames = [])
    (args : List Expr) : ∀ callee : Expr,
      (callee.calleeOn receiver).calleeFrames args = callee.calleeFrames args
  | .paren inner => by
      rw [calleeOn, calleeFrames, calleeFrames_calleeOn hreceiver args inner, calleeFrames]
  | .ident name => by rw [calleeOn, calleeFrames, calleeFrames, hreceiver]
  | .member target property => by
      rw [calleeOn, calleeFrames, frames_onReceiver hreceiver target, calleeFrames]
  | .string _ | .number _ | .boolean _ | .null | .array _ | .object _ | .tagged _ _ | .template _
  | .call _ _ | .arrow _ _ | .other _ => rfl

end

end Expr

namespace Columns

variable {enums : Enumerations} {definition : Expr} {entries others : List (String × Expr)}

/-- Whether a definition is the object with some entries or a function that returns it, with
parentheses around either. -/
inductive Defines : Expr → List (String × Expr) → Prop
  | object {definition : Expr} {entries : List (String × Expr)}
      (hobject : definition.unparen = .object entries) : Defines definition entries
  | function {definition body : Expr} {params : List String} {entries : List (String × Expr)}
      (hfunction : definition.unparen = .arrow params body)
      (hbody : body.unparen = .object entries) : Defines definition entries

/-- Whether two entries have one property and differ at most in what the first call of the second
one is made on. -/
def SameButReceiver (first second : String × Expr) : Prop :=
  second.1 = first.1 ∧ (second.2 = first.2 ∨
    ∃ receiver : Expr, ¬ receiver.IsNamedCall ∧ second.2 = first.2.onReceiver receiver)

/-- The column that an entry declares, with its property. -/
def columnEntry (enums : Enumerations) (entry : String × Expr) : String × Column :=
  (entry.1, Column.ofExpr enums entry.1 entry.2)

theorem Defines.ofExpr_eq (hdefines : Defines definition entries) (enums : Enumerations) :
    ofExpr enums definition = OrderedMap.ofList (entries.map (columnEntry enums)) := by
  have hentries : (definitionBody definition).entries? = some entries := by
    cases hdefines with
    | object hobject =>
        simp [definitionBody, Expr.function?, Expr.entries?, hobject, Expr.unparen]
    | function hfunction hbody =>
        simp [definitionBody, Expr.function?, Expr.entries?, hfunction, hbody, Expr.unparen]
  rw [ofExpr, hentries]
  rfl

/-- A column depends on the frames of its chain only. -/
theorem columnEntry_eq_of_sameButReceiver {first second : String × Expr}
    (hsame : SameButReceiver first second) :
    columnEntry enums first = columnEntry enums second := by
  obtain ⟨hproperty, hexpr⟩ := hsame
  have hframes : second.2.frames = first.2.frames := by
    rcases hexpr with hexpr | ⟨receiver, hreceiver, hexpr⟩
    · rw [hexpr]
    · rw [hexpr, Expr.frames_onReceiver ((Expr.frames_eq_nil_iff receiver).mpr hreceiver)]
  simp only [columnEntry, Column.ofExpr, hproperty, hframes]

theorem map_columnEntry_eq (hsame : List.Forall₂ SameButReceiver entries others) :
    entries.map (columnEntry enums) = others.map (columnEntry enums) := by
  induction hsame with
  | nil => rfl
  | cons hentry _ ih =>
      rw [List.map_cons, List.map_cons, columnEntry_eq_of_sameButReceiver hentry, ih]

/-- A definition by some entries has their properties in the order in which they first come, each
with the column of its last entry. The columns are the same for an object and for a function that
returns it, and whatever the first calls of the entries are made on. -/
theorem ofExpr_followsEntries :
    (∀ enums definition entries, Defines definition entries →
      (ofExpr enums definition).keys = (entries.map Prod.fst).eraseDups ∧
      ∀ front property expr back, entries = front ++ (property, expr) :: back →
        property ∉ back.map Prod.fst →
        (ofExpr enums definition).find? property = some (Column.ofExpr enums property expr)) ∧
    (∀ enums first second entries others, Defines first entries → Defines second others →
      List.Forall₂ SameButReceiver entries others →
        ofExpr enums first = ofExpr enums second) := by
  constructor
  · intro enums definition entries hdefines
    rw [hdefines.ofExpr_eq enums]
    constructor
    · rw [OrderedMap.keys_ofList, List.map_map]
      rfl
    · rintro front property expr back rfl hlast
      rw [List.map_append, List.map_cons]
      refine OrderedMap.find?_ofList_of_last _ _ ?_
      rwa [List.map_map]
  · intro enums first second entries others hfirst hsecond hsame
    rw [hfirst.ofExpr_eq enums, hsecond.ofExpr_eq enums, map_columnEntry_eq hsame]

/-- An object that repeats a property, and a function of the builders that returns it. -/
theorem ofExpr_repeatedProperty :
    let entries : List (String × Expr) := [("id", .call (.ident "uuid") []),
      ("name", .call (.ident "text") []),
      ("id", .call (.member (.call (.ident "integer") []) "notNull") [])]
    let others : List (String × Expr) := [("id", .call (.member (.ident "t") "uuid") []),
      ("name", .call (.ident "text") []),
      ("id", .call (.member (.call (.member (.ident "t") "integer") []) "notNull") [])]
    let function : Expr := .paren (.arrow ["t"] (.paren (.object others)))
    Defines (.object entries) entries ∧ Defines function others ∧
      List.Forall₂ SameButReceiver entries others ∧
      ofExpr .empty function = ofExpr .empty (.object entries) ∧
      (ofExpr .empty function).keys = ["id", "name"] ∧
      (ofExpr .empty function).find? "id" =
        some { Column.unknown with type := "int", nullable := false } := by
  intro entries others function
  have hentries : Defines (.object entries) entries := .object rfl
  have hothers : Defines function others := .function rfl rfl
  have hbuilders : ¬ (Expr.ident "t").IsNamedCall := (Expr.frames_eq_nil_iff _).mp rfl
  have hsame : List.Forall₂ SameButReceiver entries others :=
    .cons ⟨rfl, .inr ⟨_, hbuilders, rfl⟩⟩
      (.cons ⟨rfl, .inl rfl⟩ (.cons ⟨rfl, .inr ⟨_, hbuilders, rfl⟩⟩ .nil))
  obtain ⟨hkeys, hlast⟩ := ofExpr_followsEntries.1 .empty _ _ hothers
  refine ⟨hentries, hothers, hsame,
    (ofExpr_followsEntries.2 .empty _ _ _ _ hentries hothers hsame).symm, ?_, ?_⟩
  · rw [hkeys]
    decide
  · rw [hlast (others.take 2) "id" _ [] rfl List.not_mem_nil]
    rfl

end Columns

end EntityModel
