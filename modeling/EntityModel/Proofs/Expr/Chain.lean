import EntityModel.Proofs.Expr.Parentheses
import Mathlib.Data.List.Induction

/-!
# Chains of calls

Calls that are made one after the other on an expression are its frames, the last one first, in
front of those of the expression (`frames_callAll`), and do not change what the calls are made on
(`receiver_callAll`). Every expression is a chain of calls on its receiver, up to parentheses.
-/

namespace EntityModel

namespace Expr

/-- Calls made one after the other, the first one on an expression. -/
def callAll (target : Expr) (calls : List Frame) : Expr :=
  calls.foldl (fun inner call => .call (.member inner call.name) call.args) target

/-- Whether an expression is a call of a name: of an identifier or of a member. -/
def IsNamedCall (expr : Expr) : Prop :=
  ∃ callee args, expr.unparen = .call callee args ∧ callee.calleeName?.isSome = true

theorem frames_callAll (target : Expr) (calls : List Frame) :
    (target.callAll calls).frames = calls.reverse ++ target.frames := by
  induction calls generalizing target with
  | nil => rfl
  | cons call calls ih =>
      rw [callAll, List.foldl_cons, ← callAll, ih, frames, calleeFrames, List.reverse_cons,
        List.append_assoc]
      rfl

theorem calleeFrames_eq_nil_iff (args : List Expr) (callee : Expr) :
    callee.calleeFrames args = [] ↔ callee.calleeName? = none := by
  induction callee using unparen.induct with
  | case1 inner ih => simpa [calleeFrames, calleeName?] using ih
  | case2 callee hbare => cases callee <;> simp_all [calleeFrames, calleeName?, unparen]

/-- Only calls of names are frames. -/
theorem frames_eq_nil_iff (expr : Expr) : expr.frames = [] ↔ ¬ expr.IsNamedCall := by
  induction expr using unparen.induct with
  | case1 inner ih => simpa [frames, IsNamedCall] using ih
  | case2 expr hbare =>
      cases expr with
      | call callee args => simp [frames, IsNamedCall, unparen, calleeFrames_eq_nil_iff]
      | paren inner => exact absurd rfl (hbare inner)
      | _ => simp [frames, IsNamedCall, unparen]

/-! ## Receivers -/

theorem callAll_concat (target : Expr) (calls : List Frame) (call : Frame) :
    target.callAll (calls ++ [call]) =
      .call (.member (target.callAll calls) call.name) call.args := by
  rw [callAll, List.foldl_append]
  rfl

@[simp] theorem receiver_callAll (target : Expr) (calls : List Frame) :
    (target.callAll calls).receiver = target.receiver := by
  induction calls using List.reverseRecOn with
  | nil => rfl
  | append_singleton calls call ih =>
      rw [callAll_concat, receiver, objectReceiver?, Option.getD_some, ih]

/-- One more call on a chain. -/
theorem strip_call_eq_callAll {target receiver : Expr} {calls : List Frame}
    (hchain : target.strip = (receiver.callAll calls).strip) (name : String) (args : List Expr) :
    (Expr.call (.member target name) args).strip =
      (receiver.callAll (calls ++ [⟨name, args⟩])).strip := by
  simp only [callAll_concat, strip, hchain]

mutual

/-- An expression is a chain of calls on its receiver. -/
theorem exists_strip_eq_callAll_receiver : ∀ expr : Expr,
    ∃ calls, expr.strip = (expr.receiver.callAll calls).strip
  | .paren inner => by
      rw [strip, receiver]
      exact exists_strip_eq_callAll_receiver inner
  | .call callee args => by
      rw [receiver]
      cases hobject : callee.objectReceiver? with
      | none => exact ⟨[], rfl⟩
      | some receiver => exact exists_strip_call_eq_callAll args callee hobject
  | .string _ | .number _ | .boolean _ | .null | .array _ | .object _ | .tagged _ _ | .template _
  | .member _ _ | .ident _ | .arrow _ _ | .other _ => ⟨[], rfl⟩

theorem exists_strip_call_eq_callAll (args : List Expr) : ∀ (callee : Expr) {receiver : Expr},
    callee.objectReceiver? = some receiver →
      ∃ calls, (Expr.call callee args).strip = (receiver.callAll calls).strip
  | .paren inner, receiver, hobject => by
      rw [strip, strip, ← strip]
      exact exists_strip_call_eq_callAll args inner hobject
  | .member target name, receiver, hobject => by
      obtain rfl := Option.some.inj hobject
      obtain ⟨calls, hcalls⟩ := exists_strip_eq_callAll_receiver target
      exact ⟨calls ++ [⟨name, args⟩], strip_call_eq_callAll hcalls name args⟩
  | .string _, _, hobject | .number _, _, hobject | .boolean _, _, hobject | .null, _, hobject
  | .array _, _, hobject | .object _, _, hobject | .tagged _ _, _, hobject
  | .template _, _, hobject | .call _ _, _, hobject | .ident _, _, hobject
  | .arrow _ _, _, hobject | .other _, _, hobject => nomatch hobject

end

/-! ## Chains that start with a call -/

/-- Whether an expression is a call that a chain starts with: of an identifier, or of a member of
anything but a call of a name. -/
inductive Starts : Expr → Frame → Prop
  | ident (name : String) (args : List Expr) : Starts (.call (.ident name) args) ⟨name, args⟩
  | member {target : Expr} (htarget : ¬ target.IsNamedCall) (name : String) (args : List Expr) :
      Starts (.call (.member target name) args) ⟨name, args⟩

/-- Whether an expression is a call followed by others in their order, with parentheses around any
of its parts. -/
def IsChain (expr : Expr) (root : Frame) (calls : List Frame) : Prop :=
  ∃ first, Starts first root ∧ expr.strip = (first.callAll calls).strip

theorem Starts.frames_eq {first : Expr} {root : Frame} (hstarts : Starts first root) :
    first.frames = [root] := by
  cases hstarts with
  | ident name args => rfl
  | member htarget name args =>
      rw [frames, calleeFrames, (frames_eq_nil_iff _).mpr htarget]

end Expr

end EntityModel
