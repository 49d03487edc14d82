import EntityModel.Catalog.Constraints

/-!
# Expressions without parentheses

Parentheses may stand around any part of an expression. Every function that reads an expression
looks through them: it reads the same from the stripped expression, and the parts that it takes out
of that one are the stripped parts (`reads_strip`, `takes_strip`, `frames_strip`, `receiver_strip`).
-/

namespace EntityModel

namespace Expr

mutual

/-- An expression with the parentheses around all of its parts removed. -/
def strip : Expr → Expr
  | .string value => .string value
  | .number value => .number value
  | .boolean value => .boolean value
  | .null => .null
  | .array items => .array (stripItems items)
  | .object entries => .object (stripEntries entries)
  | .paren inner => inner.strip
  | .tagged tag text => .tagged tag text
  | .template text => .template text
  | .call callee args => .call callee.strip (stripItems args)
  | .ident name => .ident name
  | .member target property => .member target.strip property
  | .arrow params body => .arrow params body.strip
  | .other kind => .other kind

def stripItems : List Expr → List Expr
  | [] => []
  | item :: rest => item.strip :: stripItems rest

def stripEntries : List (String × Expr) → List (String × Expr)
  | [] => []
  | (key, value) :: rest => (key, value.strip) :: stripEntries rest

end

@[simp] theorem stripItems_eq_map (items : List Expr) : stripItems items = items.map strip := by
  induction items with
  | nil => rfl
  | cons item rest ih => rw [stripItems, ih, List.map_cons]

@[simp] theorem stripEntries_eq_map (entries : List (String × Expr)) :
    stripEntries entries = entries.map (Prod.map id strip) := by
  induction entries with
  | nil => rfl
  | cons entry rest ih => rw [stripEntries, ih, List.map_cons, Prod.map, id]

variable (expr : Expr)

@[simp] theorem unparen_strip : expr.strip.unparen = expr.strip := by
  induction expr using unparen.induct with
  | case1 inner ih => rw [strip, ih]
  | case2 expr hbare => cases expr <;> simp_all [strip, unparen]

@[simp] theorem strip_unparen : expr.unparen.strip = expr.strip := by
  induction expr using unparen.induct with
  | case1 inner ih => rw [unparen, ih, strip]
  | case2 expr hbare => cases expr <;> simp_all [unparen]

/-- What holds no other expression is read alike. -/
@[simp] theorem reads_strip : expr.strip.string? = expr.string? ∧
    expr.strip.number? = expr.number? ∧ expr.strip.boolean? = expr.boolean? ∧
    expr.strip.name? = expr.name? ∧ expr.strip.property? = expr.property? := by
  induction expr using unparen.induct with
  | case1 inner ih => simpa [strip, string?, number?, boolean?, name?, property?] using ih
  | case2 expr hbare =>
      cases expr <;> simp_all [strip, unparen, string?, number?, boolean?, name?, property?]

/-- The expressions that another one holds are taken out stripped. -/
@[simp] theorem takes_strip : expr.strip.items? = expr.items?.map (List.map strip) ∧
    expr.strip.entries? = expr.entries?.map (List.map (Prod.map id strip)) ∧
    expr.strip.function? = expr.function?.map (Prod.map id strip) := by
  induction expr using unparen.induct with
  | case1 inner ih => simpa [strip, items?, entries?, function?] using ih
  | case2 expr hbare => cases expr <;> simp_all [strip, unparen, items?, entries?, function?]

theorem lookup_map_strip (key : String) (entries : List (String × Expr)) :
    (entries.map (Prod.map id strip)).lookup key = (entries.lookup key).map strip := by
  induction entries with
  | nil => rfl
  | cons entry rest ih =>
      obtain ⟨first, value⟩ := entry
      simp only [List.map_cons, Prod.map, id, List.lookup_cons]
      split
      · rfl
      · exact ih

@[simp] theorem get?_strip (key : String) :
    expr.strip.get? key = (expr.get? key).map strip := by
  cases hentries : expr.entries? with
  | none => simp [get?, hentries]
  | some entries =>
      cases hvalue : entries.lookup key <;> simp [get?, hentries, lookup_map_strip, hvalue]

theorem base?_strip : ∀ expr : Expr, expr.strip.base? = expr.base?
  | .paren inner => by rw [strip, base?_strip inner, base?]
  | .member target _ => by rw [strip, base?, base?_strip target, base?]
  | .string _ | .number _ | .boolean _ | .null | .array _ | .object _ | .tagged _ _ | .template _
  | .call _ _ | .ident _ | .arrow _ _ | .other _ => rfl

@[simp] theorem root?_strip : expr.strip.root? = expr.root? := by
  induction expr using unparen.induct with
  | case1 inner ih => simpa [strip, root?] using ih
  | case2 expr hbare => cases expr <;> simp_all [strip, unparen, root?, base?_strip]

/-! ## Call chains -/

end Expr

/-- A call with the parentheses in its arguments removed. -/
def Frame.strip (frame : Frame) : Frame := ⟨frame.name, frame.args.map Expr.strip⟩

@[simp] theorem Frame.name_strip (frame : Frame) : frame.strip.name = frame.name := rfl

@[simp] theorem Frame.args_strip (frame : Frame) :
    frame.strip.args = frame.args.map Expr.strip := rfl

@[simp] theorem Frame.arg?_strip (frame : Frame) (index : Nat) :
    frame.strip.arg? index = (frame.arg? index).map Expr.strip := by
  cases harg : frame.args[index]? <;> simp [arg?, harg]

namespace Expr

mutual

@[simp] theorem frames_strip : ∀ expr : Expr, expr.strip.frames = expr.frames.map Frame.strip
  | .paren inner => by rw [strip, frames_strip inner, frames]
  | .call callee args => by rw [strip, frames, stripItems_eq_map, calleeFrames_strip, frames]
  | .string _ | .number _ | .boolean _ | .null | .array _ | .object _ | .tagged _ _ | .template _
  | .member _ _ | .ident _ | .arrow _ _ | .other _ => rfl

theorem calleeFrames_strip (args : List Expr) : ∀ callee : Expr,
    callee.strip.calleeFrames (args.map strip) = (callee.calleeFrames args).map Frame.strip
  | .paren inner => by rw [strip, calleeFrames_strip args inner, calleeFrames]
  | .member target property => by
      rw [strip, calleeFrames, frames_strip target, calleeFrames, List.map_cons, Frame.strip]
  | .string _ | .number _ | .boolean _ | .null | .array _ | .object _ | .tagged _ _ | .template _
  | .call _ _ | .ident _ | .arrow _ _ | .other _ => rfl

end

@[simp] theorem rootFrame?_strip (expr : Expr) :
    expr.strip.rootFrame? = expr.rootFrame?.map Frame.strip := by
  rw [rootFrame?, frames_strip, List.getLast?_map, rootFrame?]

mutual

@[simp] theorem receiver_strip : ∀ expr : Expr, expr.strip.receiver = expr.receiver.strip
  | .paren inner => by rw [strip, receiver_strip inner, receiver]
  | .call callee args => by
      rw [strip, receiver, objectReceiver?_strip callee, receiver]
      cases callee.objectReceiver? with
      | none => rw [Option.map_none, Option.getD_none, Option.getD_none, strip]
      | some inner => rw [Option.map_some, Option.getD_some, Option.getD_some]
  | .string _ | .number _ | .boolean _ | .null | .array _ | .object _ | .tagged _ _ | .template _
  | .member _ _ | .ident _ | .arrow _ _ | .other _ => rfl

theorem objectReceiver?_strip : ∀ callee : Expr,
    callee.strip.objectReceiver? = callee.objectReceiver?.map strip
  | .paren inner => by rw [strip, objectReceiver?_strip inner, objectReceiver?]
  | .member target _ => by
      rw [strip, objectReceiver?, receiver_strip target, objectReceiver?, Option.map_some]
  | .string _ | .number _ | .boolean _ | .null | .array _ | .object _ | .tagged _ _ | .template _
  | .call _ _ | .ident _ | .arrow _ _ | .other _ => rfl

end

mutual

/-- A receiver has no parentheses around it. -/
theorem receiver_ne_paren : ∀ expr inner : Expr, expr.receiver ≠ .paren inner
  | .paren expr, inner => by rw [receiver]; exact receiver_ne_paren expr inner
  | .call callee args, inner => by
      intro heq
      rw [receiver] at heq
      cases hobject : callee.objectReceiver? with
      | none => rw [hobject] at heq; cases heq
      | some found =>
          rw [hobject, Option.getD_some] at heq
          exact objectReceiver?_ne_paren callee inner (heq ▸ hobject)
  | .string _, _ | .number _, _ | .boolean _, _ | .null, _ | .array _, _ | .object _, _
  | .tagged _ _, _ | .template _, _ | .member _ _, _ | .ident _, _ | .arrow _ _, _
  | .other _, _ => nofun

theorem objectReceiver?_ne_paren : ∀ callee inner : Expr,
    callee.objectReceiver? ≠ some (.paren inner)
  | .paren callee, inner => by
      rw [objectReceiver?]
      exact objectReceiver?_ne_paren callee inner
  | .member target _, inner => by
      rw [objectReceiver?]
      exact fun heq => receiver_ne_paren target inner (Option.some.inj heq)
  | .string _, _ | .number _, _ | .boolean _, _ | .null, _ | .array _, _ | .object _, _
  | .tagged _ _, _ | .template _, _ | .call _ _, _ | .ident _, _ | .arrow _ _, _
  | .other _, _ => nofun

end

end Expr

end EntityModel
