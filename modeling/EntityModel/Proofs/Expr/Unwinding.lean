import EntityModel.Proofs.Expr.Chain

/-!
# Frames and receivers agree

The frames of a chain are read from the calls that it is made of, whatever parentheses stand around
it, around its callees and around what they are accessed on. Frames and receiver are found by two
walks of their own, and both walks end at the same place: the receiver is what the call of the last
frame is made on (`frames_and_receiver`).
-/

namespace EntityModel

namespace Expr

/-- Whether an expression is another one with parentheses put around the whole of it, around
callees and around what they are accessed on. Arguments stay as they are. -/
inductive Encloses : (bare written : Expr) → Prop
  | same (expr : Expr) : Encloses expr expr
  | paren {bare written : Expr} (hwritten : Encloses bare written) : Encloses bare (.paren written)
  | call {bare written : Expr} (hwritten : Encloses bare written) (args : List Expr) :
      Encloses (.call bare args) (.call written args)
  | member {bare written : Expr} (hwritten : Encloses bare written) (property : String) :
      Encloses (.member bare property) (.member written property)

/-- What the outermost calls of a chain are made on, by their count and without parentheses around
it. After no calls this is the chain itself. -/
def calledOn? : Nat → Expr → Option Expr
  | 0, expr => some expr.unparen
  | count + 1, expr =>
    match expr.unparen with
    | .call callee _ =>
      match callee.unparen with
      | .member target _ => calledOn? count target
      | _ => none
    | _ => none

/-- Whether frames are those of the calls that an expression is made of, and a receiver is what the
innermost of these calls is made on. A call of an identifier is made on nothing, so it is its own
receiver, and so is an expression that is not a call of a name. -/
structure UnwindsTo (expr : Expr) (frames : List Frame) (receiver : Expr) : Prop where
  frame_iff : ∀ index frame, frames[index]? = some frame ↔ ∃ callee,
    expr.calledOn? index = some (.call callee frame.args) ∧ callee.calleeName? = some frame.name
  of_no_frames : frames = [] → receiver = expr.unparen
  of_ident : ∀ count callee args name, frames.length = count + 1 →
    expr.calledOn? count = some (.call callee args) → callee.unparen = .ident name →
      receiver = .call callee args
  of_member : ∀ count callee args target property, frames.length = count + 1 →
    expr.calledOn? count = some (.call callee args) → callee.unparen = .member target property →
      receiver = target.unparen

/-! ## Parentheses -/

/-- Parentheses change neither the frames of a chain nor those of a callee. -/
theorem Encloses.frames_eq {bare written : Expr} (hencloses : Encloses bare written) :
    written.frames = bare.frames ∧
      ∀ args, written.calleeFrames args = bare.calleeFrames args := by
  induction hencloses with
  | same expr => exact ⟨rfl, fun _ => rfl⟩
  | paren _ ih => exact ih
  | call _ args ih => exact ⟨ih.2 args, fun _ => rfl⟩
  | member _ property ih => exact ⟨rfl, fun args => by rw [calleeFrames, calleeFrames, ih.1]⟩

variable {expr callee target : Expr} {args : List Expr} {name property : String}

@[simp] theorem frames_unparen (expr : Expr) : expr.unparen.frames = expr.frames := by
  induction expr using unparen.induct with
  | case1 inner ih => exact ih
  | case2 expr hbare => cases expr <;> simp_all [unparen]

@[simp] theorem calleeFrames_unparen (args : List Expr) (callee : Expr) :
    callee.unparen.calleeFrames args = callee.calleeFrames args := by
  induction callee using unparen.induct with
  | case1 inner ih => exact ih
  | case2 callee hbare => cases callee <;> simp_all [unparen]

@[simp] theorem receiver_unparen (expr : Expr) : expr.unparen.receiver = expr.receiver := by
  induction expr using unparen.induct with
  | case1 inner ih => exact ih
  | case2 expr hbare => cases expr <;> simp_all [unparen]

@[simp] theorem objectReceiver?_unparen (callee : Expr) :
    callee.unparen.objectReceiver? = callee.objectReceiver? := by
  induction callee using unparen.induct with
  | case1 inner ih => exact ih
  | case2 callee hbare => cases callee <;> simp_all [unparen]

/-! ## One call -/

theorem frames_of_call (hexpr : expr.unparen = .call callee args) :
    expr.frames = callee.unparen.calleeFrames args := by
  rw [← frames_unparen, hexpr, frames, calleeFrames_unparen]

theorem receiver_of_call (hexpr : expr.unparen = .call callee args) :
    expr.receiver = callee.unparen.objectReceiver?.getD (.call callee args) := by
  rw [← receiver_unparen, hexpr, receiver, objectReceiver?_unparen]

theorem calledOn?_zero (hexpr : expr.unparen = .call callee args) :
    expr.calledOn? 0 = some (.call callee args) := congrArg some hexpr

theorem calledOn?_succ (hexpr : expr.unparen = .call callee args)
    (hcallee : callee.unparen = .member target property) (count : Nat) :
    expr.calledOn? (count + 1) = target.calledOn? count := by
  simp only [calledOn?, hexpr, hcallee]

/-- Behind a call of anything but a member there is nothing. -/
theorem calledOn?_succ_eq_none (hmember : ∀ callee args target property,
    expr.unparen = .call callee args → callee.unparen ≠ .member target property) (count : Nat) :
    expr.calledOn? (count + 1) = none := by
  rw [calledOn?]
  split
  next callee args hexpr =>
    split
    next target property hcallee => exact absurd hcallee (hmember _ _ _ _ hexpr)
    next => rfl
  next => rfl

/-- The outermost call of a chain is its first frame. -/
theorem first_frame_iff (hexpr : expr.unparen = .call callee args)
    (hname : callee.calleeName? = some name) (frame : Frame) :
    some ⟨name, args⟩ = some frame ↔ ∃ other,
      expr.calledOn? 0 = some (.call other frame.args) ∧ other.calleeName? = some frame.name := by
  rw [calledOn?_zero hexpr]
  constructor
  · rintro ⟨⟩
    exact ⟨callee, rfl, hname⟩
  · rintro ⟨_, ⟨⟩, hother⟩
    rw [Option.some.inj (hname.symm.trans hother)]

/-- A call of an identifier is the only call of its chain. -/
theorem unwindsTo_of_ident (hexpr : expr.unparen = .call callee args)
    (hcallee : callee.unparen = .ident name) : UnwindsTo expr expr.frames expr.receiver := by
  have hframes : expr.frames = [⟨name, args⟩] := by
    rw [frames_of_call hexpr, hcallee]
    rfl
  have hreceiver : expr.receiver = .call callee args := by
    rw [receiver_of_call hexpr, hcallee]
    rfl
  have hname : callee.calleeName? = some name := by rw [calleeName?, hcallee]
  have hnone : ∀ count, expr.calledOn? (count + 1) = none := by
    refine calledOn?_succ_eq_none fun other others target property hother hmember => ?_
    obtain ⟨rfl, rfl⟩ := Expr.call.inj (hexpr.symm.trans hother)
    cases hcallee.symm.trans hmember
  have hsome := List.cons_ne_nil ⟨name, args⟩ ([] : List Frame)
  rw [hframes, hreceiver]
  refine ⟨fun index frame => ?_, fun hnil => absurd hnil hsome,
    fun count other others _ hlength hon _ => ?_,
    fun count other others target property hlength hon hmember => ?_⟩
  · cases index with
    | zero => exact first_frame_iff hexpr hname frame
    | succ index => simp [hnone]
  · obtain rfl : count = 0 := by simpa using hlength.symm
    exact Option.some.inj ((calledOn?_zero hexpr).symm.trans hon)
  · obtain rfl : count = 0 := by simpa using hlength.symm
    cases (calledOn?_zero hexpr).symm.trans hon
    cases hcallee.symm.trans hmember

/-- A call of a member comes in front of the calls of what the member is accessed on. -/
theorem unwindsTo_of_member (hexpr : expr.unparen = .call callee args)
    (hcallee : callee.unparen = .member target property)
    (htarget : UnwindsTo target target.frames target.receiver) :
    UnwindsTo expr expr.frames expr.receiver := by
  have hframes : expr.frames = ⟨property, args⟩ :: target.frames := by
    rw [frames_of_call hexpr, hcallee, calleeFrames]
  have hreceiver : expr.receiver = target.receiver := by
    rw [receiver_of_call hexpr, hcallee]
    rfl
  have hname : callee.calleeName? = some property := by rw [calleeName?, hcallee]
  -- Counted from the outermost call, the calls of the target stand one place further on.
  have hnext := calledOn?_succ hexpr hcallee
  have hsome := List.cons_ne_nil ⟨property, args⟩ target.frames
  rw [hframes, hreceiver]
  refine ⟨fun index frame => ?_, fun hnil => absurd hnil hsome,
    fun count other others name hlength hon hident => ?_,
    fun count other others inner property hlength hon hmember => ?_⟩
  · cases index with
    | zero => exact first_frame_iff hexpr hname frame
    | succ index =>
        rw [hnext]
        exact htarget.frame_iff index frame
  · rw [List.length_cons, Nat.add_right_cancel_iff] at hlength
    cases count with
    | zero =>
        cases (calledOn?_zero hexpr).symm.trans hon
        cases hcallee.symm.trans hident
    | succ count =>
        rw [hnext] at hon
        exact htarget.of_ident count other others name hlength hon hident
  · rw [List.length_cons, Nat.add_right_cancel_iff] at hlength
    cases count with
    | zero =>
        cases (calledOn?_zero hexpr).symm.trans hon
        cases hcallee.symm.trans hmember
        exact htarget.of_no_frames (List.length_eq_zero_iff.mp hlength)
    | succ count =>
        rw [hnext] at hon
        exact htarget.of_member count other others inner property hlength hon hmember

theorem objectReceiver?_eq_none (hname : callee.calleeName? = none) :
    callee.objectReceiver? = none := by
  induction callee using unparen.induct with
  | case1 inner ih => exact ih hname
  | case2 callee hbare =>
      cases callee with
      | paren inner => exact absurd rfl (hbare inner)
      | ident name => cases hname
      | member target property => cases hname
      | _ => rfl

theorem receiver_of_not_isNamedCall (hexpr : ¬ expr.IsNamedCall) :
    expr.receiver = expr.unparen := by
  induction expr using unparen.induct with
  | case1 inner ih => exact ih hexpr
  | case2 expr hbare =>
      cases expr with
      | paren inner => exact absurd rfl (hbare inner)
      | call callee args =>
          have hname : callee.calleeName? = none := by
            by_contra hname
            exact hexpr ⟨callee, args, rfl, Option.isSome_iff_ne_none.mpr hname⟩
          rw [receiver, objectReceiver?_eq_none hname, Option.getD_none, unparen]
          exact hbare
      | _ => rfl

/-- What is not a call of a name has no frames and is its own receiver. -/
theorem unwindsTo_of_not_isNamedCall (hexpr : ¬ expr.IsNamedCall) :
    UnwindsTo expr expr.frames expr.receiver := by
  have hunnamed : ∀ callee args, expr.unparen = .call callee args →
      callee.calleeName? = none := by
    intro callee args hcall
    by_contra hname
    exact hexpr ⟨callee, args, hcall, Option.isSome_iff_ne_none.mpr hname⟩
  have hnone : ∀ count, expr.calledOn? (count + 1) = none := by
    refine calledOn?_succ_eq_none fun callee args target property hcall hmember => ?_
    have hname := hunnamed callee args hcall
    rw [calleeName?, hmember] at hname
    cases hname
  rw [(frames_eq_nil_iff expr).mpr hexpr]
  refine ⟨fun index frame => ⟨fun hframe => ?_, ?_⟩, fun _ => receiver_of_not_isNamedCall hexpr,
    fun count _ _ _ hlength => ?_, fun count _ _ _ _ hlength => ?_⟩
  · cases hframe
  · rintro ⟨callee, hon, hname⟩
    cases index with
    | zero =>
        rw [hunnamed callee frame.args (Option.some.inj hon)] at hname
        cases hname
    | succ index =>
        rw [hnone] at hon
        cases hon
  · cases hlength
  · cases hlength

/-! ## Whole chains -/

/-- An expression unwinds if what its outermost call is made on does. -/
theorem unwindsTo_of_target (expr : Expr)
    (htarget : ∀ {callee args target property}, expr.unparen = .call callee args →
      callee.unparen = .member target property → UnwindsTo target target.frames target.receiver) :
    UnwindsTo expr expr.frames expr.receiver := by
  by_cases hnamed : expr.IsNamedCall
  · obtain ⟨callee, args, hexpr, hname⟩ := hnamed
    rw [calleeName?] at hname
    split at hname
    next name hcallee => exact unwindsTo_of_ident hexpr hcallee
    next target property hcallee =>
      exact unwindsTo_of_member hexpr hcallee (htarget hexpr hcallee)
    next => cases hname
  · exact unwindsTo_of_not_isNamedCall hnamed

-- The calls of a chain lie below its callees, so the recursion goes through expressions and callees
-- in turn, parentheses around either included.
mutual

theorem unwindsTo_target : ∀ (expr : Expr) {callee target : Expr} {args : List Expr}
    {property : String}, expr.unparen = .call callee args →
      callee.unparen = .member target property → UnwindsTo target target.frames target.receiver
  | .paren inner, _, _, _, _, hexpr, hcallee => unwindsTo_target inner hexpr hcallee
  | .call callee _, _, _, _, _, hexpr, hcallee => by
      cases hexpr
      exact unwindsTo_calleeTarget callee hcallee
  | .string _, _, _, _, _, hexpr, _ | .number _, _, _, _, _, hexpr, _
  | .boolean _, _, _, _, _, hexpr, _ | .null, _, _, _, _, hexpr, _
  | .array _, _, _, _, _, hexpr, _ | .object _, _, _, _, _, hexpr, _
  | .tagged _ _, _, _, _, _, hexpr, _ | .template _, _, _, _, _, hexpr, _
  | .member _ _, _, _, _, _, hexpr, _ | .ident _, _, _, _, _, hexpr, _
  | .arrow _ _, _, _, _, _, hexpr, _ | .other _, _, _, _, _, hexpr, _ => nomatch hexpr

theorem unwindsTo_calleeTarget : ∀ (callee : Expr) {target : Expr} {property : String},
    callee.unparen = .member target property → UnwindsTo target target.frames target.receiver
  | .paren inner, _, _, hcallee => unwindsTo_calleeTarget inner hcallee
  | .member target _, _, _, hcallee => by
      cases hcallee
      exact unwindsTo_of_target target (unwindsTo_target target)
  | .string _, _, _, hcallee | .number _, _, _, hcallee | .boolean _, _, _, hcallee
  | .null, _, _, hcallee | .array _, _, _, hcallee | .object _, _, _, hcallee
  | .tagged _ _, _, _, hcallee | .template _, _, _, hcallee | .call _ _, _, _, hcallee
  | .ident _, _, _, hcallee | .arrow _ _, _, _, hcallee | .other _, _, _, hcallee =>
      nomatch hcallee

end

/-- Whether an expression is a call followed by others in their order. -/
def ConsistsOf (expr : Expr) (root : Frame) (calls : List Frame) : Prop :=
  ∃ receiver, expr.UnwindsTo (calls.reverse ++ [root]) receiver

theorem consistsOf_iff {root : Frame} {calls : List Frame} : expr.ConsistsOf root calls ↔ expr.frames = calls.reverse ++ [root] := by
  have hexpr := unwindsTo_of_target expr (unwindsTo_target expr)
  constructor
  · rintro ⟨receiver, hunwinds⟩
    apply List.ext_getElem?
    intro index
    ext frame
    rw [hexpr.frame_iff, hunwinds.frame_iff]
  · intro hframes
    exact ⟨expr.receiver, hframes ▸ hexpr⟩

/-- The call that a chain starts with and those behind it are determined. -/
theorem ConsistsOf.unique {root root' : Frame} {calls calls' : List Frame}
    (hexpr : expr.ConsistsOf root calls) (hother : expr.ConsistsOf root' calls') :
    root = root' ∧ calls = calls' := by
  rw [consistsOf_iff] at hexpr hother
  obtain ⟨hcalls, hroot⟩ := List.append_inj' (hexpr.symm.trans hother) rfl
  exact ⟨List.head_eq_of_cons_eq hroot, List.reverse_inj.mp hcalls⟩

theorem exists_consistsOf {root : Frame} (hroot : expr.frames.getLast? = some root) :
    ∃ calls, expr.ConsistsOf root calls := by
  obtain ⟨calls, hframes⟩ := List.getLast?_eq_some_iff.mp hroot
  exact ⟨calls.reverse, consistsOf_iff.mpr (by rw [hframes, List.reverse_reverse])⟩

/-- The frames of a chain are its calls from the last one to the first and then the call that it
starts with, whatever parentheses stand around it, around its callees and around what they are
accessed on. Every expression has the frames of the calls that it is made of, and its receiver is
what the innermost of these calls is made on. -/
theorem frames_and_receiver :
    (∀ first root calls written, Starts first root → Encloses (first.callAll calls) written →
      written.frames = calls.reverse ++ [root] ∧ written.rootFrame? = some root) ∧
    ∀ expr : Expr, UnwindsTo expr expr.frames expr.receiver := by
  refine ⟨fun first root calls written hstarts hwritten => ?_,
    fun expr => unwindsTo_of_target expr (unwindsTo_target expr)⟩
  have hframes : written.frames = calls.reverse ++ [root] := by
    rw [hwritten.frames_eq.1, frames_callAll, hstarts.frames_eq]
  exact ⟨hframes, by rw [rootFrame?, hframes, List.getLast?_concat]⟩

/-- Parentheses around a root call, around a callee and around the whole of a chain. -/
theorem frames_and_receiver_parenthesized :
    let root : Frame := ⟨"varchar", [.paren (.string "name")]⟩
    let first := Expr.call (.member (.ident "t") "varchar") root.args
    let inner := Expr.paren (.call (.member (.paren (.ident "t")) "varchar") root.args)
    let written := Expr.paren (.call (.paren (.member inner "notNull")) [])
    Starts first root ∧ Encloses (first.callAll [⟨"notNull", []⟩]) written ∧
      written.frames = [⟨"notNull", []⟩, root] ∧ written.rootFrame? = some root ∧
      written.calledOn? 1 = some (.call (.member (.paren (.ident "t")) "varchar") root.args) ∧
      written.receiver = .ident "t" := by
  intro root first inner written
  have hstarts : Starts first root :=
    .member (by rintro ⟨_, _, hcall, _⟩; cases hcall) "varchar" root.args
  have hinner : Encloses first inner := .paren (.call (.member (.paren (.same _)) _) _)
  have hwritten : Encloses (first.callAll [⟨"notNull", []⟩]) written :=
    .paren (.call (.paren (.member hinner _)) _)
  obtain ⟨hframes, hroot⟩ := frames_and_receiver.1 first root _ written hstarts hwritten
  have hcall : written.calledOn? 1 =
      some (.call (.member (.paren (.ident "t")) "varchar") root.args) := rfl
  have hreceiver := (frames_and_receiver.2 written).of_member 1 _ _ (.paren (.ident "t")) "varchar"
    (by rw [hframes]; rfl) hcall rfl
  exact ⟨hstarts, hwritten, hframes, hroot, hcall, hreceiver⟩

end Expr

end EntityModel
