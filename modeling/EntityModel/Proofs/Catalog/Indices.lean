import EntityModel.Proofs.Catalog.Parentheses
import EntityModel.Proofs.Expr.Chain

/-!
# What an index covers

An index is a chain of calls. Its columns are named by the arguments of all calls of `on`, in the
order in which they are written, whatever other calls stand between them. An argument names the
column that it is called on (`NamesColumn`), and one that is called on nothing with a name or a text
names none.
-/

namespace EntityModel

namespace Expr

/-- Whether a text names a column: the property of a member access, or else the text of a string, an
identifier or a template. -/
inductive IsColumnText : Expr → String → Prop
  | member (target : Expr) (property : String) : IsColumnText (.member target property) property
  | string (value : String) : IsColumnText (.string value) value
  | ident (name : String) : IsColumnText (.ident name) name
  | template (text : String) : IsColumnText (.template text) text
  | tagged (tag text : String) : IsColumnText (.tagged tag text) (tag ++ "\x60" ++ text ++ "\x60")

/-- Whether an argument of an index names a column. Calls on what names it count for nothing. -/
def NamesColumn (argument : Expr) (name : String) : Prop :=
  ∃ receiver calls, argument.strip = (receiver.callAll calls).strip ∧ IsColumnText receiver name

theorem indexColumn?_eq_of_receiver_eq {first second : Expr}
    (hreceiver : first.receiver = second.receiver) : first.indexColumn? = second.indexColumn? := by
  rw [indexColumn?, hreceiver, indexColumn?]

theorem indexColumn?_of_isColumnText {receiver : Expr} {name : String}
    (htext : IsColumnText receiver name) : receiver.indexColumn? = some name := by
  cases htext <;> rfl

theorem isColumnText_of_indexColumn? {argument : Expr} {name : String}
    (hname : argument.indexColumn? = some name) : IsColumnText argument.receiver name := by
  have hbare := argument.receiver_ne_paren
  unfold indexColumn? at hname
  generalize argument.receiver = receiver at hbare hname
  cases receiver with
  | paren inner => exact absurd rfl (hbare inner)
  | member | string | ident | template | tagged => cases hname; constructor
  | _ => cases hname

theorem indexColumn?_eq_some_iff {argument : Expr} {name : String} :
    argument.indexColumn? = some name ↔ argument.NamesColumn name := by
  constructor
  · intro hname
    obtain ⟨calls, hcalls⟩ := argument.exists_strip_eq_callAll_receiver
    exact ⟨argument.receiver, calls, hcalls, isColumnText_of_indexColumn? hname⟩
  · rintro ⟨receiver, calls, hstrip, htext⟩
    rw [← indexColumn?_strip, hstrip, indexColumn?_strip,
      indexColumn?_eq_of_receiver_eq (receiver_callAll receiver calls)]
    exact indexColumn?_of_isColumnText htext

end Expr

namespace Index

/-- Whether a name is that of an index: the text that its first call is given, or else its key, or
else one made of its table and its columns. -/
inductive IsNamed (tableName : String) (key : Option String) (root : Frame)
    (columns : List String) : String → Prop
  | given {first : Expr} {rest : List Expr} {name : String} (hargs : root.args = first :: rest)
      (hfirst : first.string? = some name) : IsNamed tableName key root columns name
  | keyed {name : String} (hargs : ∀ first ∈ root.args.head?, first.string? = none)
      (hkey : key = some name) : IsNamed tableName key root columns name
  | derived (hargs : ∀ first ∈ root.args.head?, first.string? = none) (hkey : key = none) :
      IsNamed tableName key root columns (tableName ++ "_" ++ Text.joinWith "_" columns ++ "_idx")

/-- Whether an index is what a first call and those behind it declare, in their order. -/
structure FollowsCalls (tableName : String) (key : Option String) (root : Frame)
    (calls : List Frame) (index : Index) : Prop where
  columns_eq : index.columns = calls.flatMap fun call =>
    if call.name = "on" then call.args.filterMap Expr.indexColumn? else []
  unique_eq_false_iff : index.unique = false ↔ root.name = "index"
  isNamed : IsNamed tableName key root index.columns index.name

variable {tableName : String} {key : Option String} {root : Frame} {calls : List Frame}

theorem bind_string?_arg? (root : Frame) :
    (root.arg? 0).bind Expr.string? = root.args.head?.bind Expr.string? := by
  rw [Frame.arg?, ← List.head?_eq_getElem?]
  cases root.args.head? with
  | none => rfl
  | some first => simp [Expr.string?, Expr.unparen_unparen]

theorem isNamed_ofFrames (frames : List Frame) :
    IsNamed tableName key root (ofFrames tableName key frames root).columns
      (ofFrames tableName key frames root).name := by
  unfold ofFrames
  dsimp only
  rw [bind_string?_arg?]
  cases hgiven : root.args.head?.bind Expr.string? with
  | some name =>
      obtain ⟨first, hhead, hfirst⟩ := Option.bind_eq_some_iff.mp hgiven
      obtain ⟨rest, hargs⟩ := List.head?_eq_some_iff.mp hhead
      exact .given hargs hfirst
  | none =>
      have hnone : ∀ first ∈ root.args.head?, first.string? = none := by
        simpa [Option.bind_eq_none_iff] using hgiven
      cases key with
      | some key => exact .keyed hnone rfl
      | none => exact .derived hnone rfl

theorem followsCalls_ofFrames (hroot : root.name ≠ "on") :
    FollowsCalls tableName key root calls
      (ofFrames tableName key (calls.reverse ++ [root]) root) where
  columns_eq := by
    unfold ofFrames
    rw [List.reverse_append, List.reverse_reverse, List.reverse_singleton, List.singleton_append,
      List.filter_cons_of_neg (by simpa using hroot)]
    induction calls with
    | nil => rfl
    | cons call calls ih =>
        by_cases hon : call.name = "on" <;> simp [hon, ← ih]
  unique_eq_false_iff := by simp [ofFrames]
  isNamed := isNamed_ofFrames _

end Index

namespace Entity

theorem withConstraint_eq_of_frames_eq (entity : Entity) {key : Option String} {entry : Expr}
    {calls : List Frame} {root : Frame} (hframes : entry.frames = calls ++ [root])
    (hindex : root.name ∈ ["index", "uniqueIndex", "unique"]) :
    let index := Index.ofFrames entity.tableName key (calls ++ [root]) root
    entity.withConstraint (key, entry) = { entity with indices := entity.indices ++ [index] } := by
  have hkey : root.name ≠ "primaryKey" := by
    intro hname
    simp [hname] at hindex
  have hroot : root.isIndex = true := List.contains_iff_mem.mpr hindex
  simp only [withConstraint, hframes, List.getLast?_concat, if_neg hkey, if_pos hroot]

/-- A constraint that is a call of an index followed by other calls, with parentheses anywhere,
appends the index that the calls declare, and each of its arguments names the column that it is
called on, if there is one. -/
theorem withConstraint_followsCalls :
    (∀ (entity : Entity) key entry root calls, Expr.IsChain entry root calls →
      root.name ∈ ["index", "uniqueIndex", "unique"] →
      ∃ index, entity.withConstraint (key, entry) =
          { entity with indices := entity.indices ++ [index] } ∧
        Index.FollowsCalls entity.tableName key root calls index) ∧
    (∀ (argument : Expr) name, argument.indexColumn? = some name ↔ argument.NamesColumn name) := by
  refine ⟨fun entity key entry root calls hchain hindex => ?_,
    fun _ _ => Expr.indexColumn?_eq_some_iff⟩
  obtain ⟨first, hstarts, hstrip⟩ := hchain
  have hsame : entity.withConstraint (key, entry) =
      entity.withConstraint (key, first.callAll calls) := by
    rw [← withConstraint_strip, ← withConstraint_strip entity (key, first.callAll calls), Prod.map,
      Prod.map, hstrip]
  have hframes : (first.callAll calls).frames = calls.reverse ++ [root] := by
    rw [Expr.frames_callAll, hstarts.frames_eq]
  refine ⟨_, hsame.trans (entity.withConstraint_eq_of_frames_eq hframes hindex),
    Index.followsCalls_ofFrames ?_⟩
  intro hon
  simp [hon] at hindex

/-- An index over a property that is ordered, a property in parentheses and the text of a query, in
two calls with another one between them. -/
theorem withConstraint_orderedAndLowered :
    let table := Entity.bare "Members" "members" "members" "members.ts"
    let root : Frame := ⟨"index", [.string "members_idx"]⟩
    let calls : List Frame := [⟨"on", [.call (.member (.member (.ident "t") "joined") "desc") []]⟩,
      ⟨"using", [.string "btree"]⟩,
      ⟨"on", [.paren (.member (.ident "t") "team"), .tagged "sql" "lower(email)"]⟩]
    let entry : Expr := .paren ((Expr.paren (.call (.ident "index") root.args)).callAll calls)
    Expr.IsChain entry root calls ∧ root.name ∈ ["index", "uniqueIndex", "unique"] ∧
      ∃ index, table.withConstraint (none, entry) = { table with indices := [index] } ∧
        index.name = "members_idx" ∧ index.unique = false ∧
        index.columns = ["joined", "team", "sql\x60lower(email)\x60"] := by
  intro table root calls entry
  have hchain : Expr.IsChain entry root calls :=
    ⟨.call (.ident "index") root.args, .ident "index" root.args, rfl⟩
  have hindex : root.name ∈ ["index", "uniqueIndex", "unique"] := List.mem_cons_self
  obtain ⟨index, hsame, hfollows⟩ :=
    withConstraint_followsCalls.1 table none entry root calls hchain hindex
  refine ⟨hchain, hindex, index, hsame, ?_, hfollows.unique_eq_false_iff.mpr rfl,
    hfollows.columns_eq⟩
  have hnamed := hfollows.isNamed
  generalize index.name = name at hnamed ⊢
  cases hnamed with
  | given hargs hfirst =>
      cases hargs
      exact (Option.some.inj hfirst).symm
  | keyed hargs => cases hargs _ rfl
  | derived hargs => cases hargs _ rfl

end Entity

end EntityModel
