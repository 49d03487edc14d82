import EntityModel.Proofs.Column.Declared
import EntityModel.Proofs.Expr.Chain

/-!
# Calls that forbid null

A column whose chain calls `notNull` or `primaryKey` should never be null, whatever the calls are
made on. The first call of a chain builds the column, however, even one of these. So they count
behind every call of a builder, but the first call on anything else counts only as far as the calls
behind it say the same (`IsCoveredBy`).
-/

namespace EntityModel

namespace Column

variable {enums : Enumerations} {property : String} {expr : Expr} {first : Frame}
  {others : List Frame}

/-- Whether a column is never null if its chain calls `notNull` or `primaryKey`, and part of the
primary key if it calls `primaryKey`. -/
structure HonoursKeyCalls (enums : Enumerations) (property : String) (expr : Expr) : Prop where
  nullable_eq : (∃ call ∈ expr.frames, call.name = "notNull" ∨ call.name = "primaryKey") →
    (ofExpr enums property expr).nullable = false
  primary_eq : (∃ call ∈ expr.frames, call.name = "primaryKey") →
    (ofExpr enums property expr).primary = true

/-- Whether the calls behind the first one of a chain make a column required or primary, if it is
the first one that should. -/
structure IsCoveredBy (property : String) (first : Frame) (others : List Frame) : Prop where
  required : first.name = "notNull" ∨ first.name = "primaryKey" →
    property = createdAt ∨ ∃ call ∈ others, call.name ∈ requiredCalls
  primary : first.name = "primaryKey" → ∃ call ∈ others, call.name = "primaryKey"

theorem isCoveredBy_reverse :
    IsCoveredBy property first others.reverse ↔ IsCoveredBy property first others := by
  constructor <;>
  · intro hcovered
    exact ⟨by simpa using hcovered.required, by simpa using hcovered.primary⟩

theorem calls_iff {names : List String} {modifiers : List Frame} :
    calls names modifiers = true ↔ ∃ call ∈ modifiers, call.name ∈ names := by
  simp [calls]

/-- A column is never null by its property or by a call behind the first one. -/
theorem nullable_ofExpr_iff (hframes : expr.frames = others ++ [first]) :
    (ofExpr enums property expr).nullable = false ↔
      property = createdAt ∨ ∃ call ∈ others, call.name ∈ requiredCalls := by
  have hne : expr.frames ≠ [] := by simp [hframes]
  rw [ofExpr_eq_declared enums property hne, ← calls_iff]
  by_cases hproperty : property = createdAt <;> simp [declared, hframes, hproperty]

/-- A column is part of the primary key by a call behind the first one. -/
theorem primary_ofExpr_iff (hframes : expr.frames = others ++ [first]) :
    (ofExpr enums property expr).primary = true ↔
      ∃ call ∈ others, call.name = "primaryKey" := by
  have hne : expr.frames ≠ [] := by simp [hframes]
  rw [ofExpr_eq_declared enums property hne]
  simp [declared, hframes, calls]

theorem honoursKeyCalls_iff_isCoveredBy (hframes : expr.frames = others ++ [first]) :
    HonoursKeyCalls enums property expr ↔ IsCoveredBy property first others := by
  constructor
  · intro hhonours
    constructor
    · intro hname
      apply (nullable_ofExpr_iff hframes).mp
      exact hhonours.nullable_eq ⟨first, by simp [hframes], hname⟩
    · intro hname
      apply (primary_ofExpr_iff hframes).mp
      exact hhonours.primary_eq ⟨first, by simp [hframes], hname⟩
  · intro hcovered
    constructor
    · rintro ⟨call, hmem, hname⟩
      rw [nullable_ofExpr_iff hframes]
      rw [hframes, List.mem_append, List.mem_singleton] at hmem
      rcases hmem with hmem | rfl
      · have hrequired : call.name ∈ requiredCalls := by
          rcases hname with hname | hname <;> simp [requiredCalls, hname]
        exact Or.inr ⟨call, hmem, hrequired⟩
      · exact hcovered.required hname
    · rintro ⟨call, hmem, hname⟩
      rw [primary_ofExpr_iff hframes]
      rw [hframes, List.mem_append, List.mem_singleton] at hmem
      rcases hmem with hmem | rfl
      · exact ⟨call, hmem, hname⟩
      · exact hcovered.primary hname

theorem honoursKeyCalls_of_frames_eq_nil (hframes : expr.frames = []) :
    HonoursKeyCalls enums property expr := by
  constructor <;>
  · rintro ⟨call, hmem, _⟩
    rw [hframes] at hmem
    cases hmem

/-- The calls of a chain that forbid null count exactly if the first one is none of them or is
covered by those behind it. The first call on anything but a call of a name is itself the first one;
behind a call of a name that is none of them all of them count. -/
theorem honoursKeyCalls_iff (enums : Enumerations) (property : String) :
    (∀ expr, HonoursKeyCalls enums property expr ↔
      ∀ others first, expr.frames = others ++ [first] → IsCoveredBy property first others) ∧
    (∀ target : Expr, ¬ target.IsNamedCall → ∀ first calls,
      (HonoursKeyCalls enums property (target.callAll (first :: calls)) ↔
        IsCoveredBy property first calls)) ∧
    (∀ (target : Expr) root calls, target.rootFrame? = some root → root.name ≠ "notNull" →
      root.name ≠ "primaryKey" → HonoursKeyCalls enums property (target.callAll calls)) := by
  refine ⟨fun expr => ?_, fun target hbare first calls => ?_,
    fun target root calls hroot hnotNull hprimary => ?_⟩
  · rcases List.eq_nil_or_concat expr.frames with hnil | ⟨others, first, hframes⟩
    · refine iff_of_true (honoursKeyCalls_of_frames_eq_nil hnil) ?_
      intro others first hframes
      simp [hnil] at hframes
    · rw [List.concat_eq_append] at hframes
      rw [honoursKeyCalls_iff_isCoveredBy hframes]
      constructor
      · intro hcovered others' first' hframes'
        obtain ⟨rfl, heq⟩ := List.append_inj' (hframes.symm.trans hframes') rfl
        obtain rfl := List.singleton_injective heq
        exact hcovered
      · exact fun hall => hall others first hframes
  · have hframes : (target.callAll (first :: calls)).frames = calls.reverse ++ [first] := by
      rw [Expr.frames_callAll, (Expr.frames_eq_nil_iff target).mpr hbare, List.append_nil,
        List.reverse_cons]
    rw [honoursKeyCalls_iff_isCoveredBy hframes, isCoveredBy_reverse]
  · obtain ⟨front, hfront⟩ := List.getLast?_eq_some_iff.mp hroot
    have hframes : (target.callAll calls).frames = (calls.reverse ++ front) ++ [root] := by
      rw [Expr.frames_callAll, hfront, List.append_assoc]
    rw [honoursKeyCalls_iff_isCoveredBy hframes]
    -- The first call forbids nothing, so no call needs to cover it.
    constructor
    · rintro (hname | hname)
      · exact absurd hname hnotNull
      · exact absurd hname hprimary
    · exact fun hname => absurd hname hprimary

/-- A key on a shared column and a requirement on the result of a call that is called are lost. -/
theorem not_honoursKeyCalls_sharedColumn :
    (¬ HonoursKeyCalls OrderedMap.empty "id" ((Expr.ident "idColumn").callAll
      [⟨"primaryKey", []⟩])) ∧
    ¬ HonoursKeyCalls OrderedMap.empty "code"
      ((Expr.call (.call (.ident "customType") [.object []]) [.string "code"]).callAll
        [⟨"notNull", []⟩]) := by
  constructor
  · intro hhonours
    have hprimary := hhonours.primary_eq ⟨⟨"primaryKey", []⟩, List.mem_singleton_self _, rfl⟩
    exact absurd hprimary (by decide)
  · intro hhonours
    have hnullable := hhonours.nullable_eq ⟨⟨"notNull", []⟩, List.mem_singleton_self _, Or.inl rfl⟩
    exact absurd hnullable (by decide)

end Column

end EntityModel
