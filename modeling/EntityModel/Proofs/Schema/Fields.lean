import EntityModel.Proofs.Schema.Quoted

/-!
# Fields stay on their lines

No value of a field contains a line feed, whatever texts it is written from, and no name of a field
contains a colon, so that a field is one line and its name ends at the first colon of it.
-/

namespace EntityModel

theorem Text.newline_not_mem_joinWith {separator : String} {lines : List String}
    (hseparator : '\n' ∉ separator.toList) (hlines : ∀ line ∈ lines, '\n' ∉ line.toList) :
    '\n' ∉ (joinWith separator lines).toList := by
  induction lines with
  | nil => simp [joinWith]
  | cons first rest ih =>
      obtain ⟨hfirst, hrest⟩ := List.forall_mem_cons.mp hlines
      cases rest with
      | nil => exact hfirst
      | cons second rest =>
          rw [joinWith_cons_cons]
          simp [hfirst, hseparator, ih hrest]

theorem Nat.newline_not_mem_toDigits (value : Nat) : '\n' ∉ Nat.toDigits 10 value := by
  intro hmem
  have hdigit := Nat.isDigit_of_mem_toDigits (by omega) (by omega) hmem
  cases hdigit

theorem NumberStyle.newline_not_mem_plain_text (value : Number) :
    '\n' ∉ (NumberStyle.plain.text value).toList := by
  have hpositional : ∀ decimal, '\n' ∉ NumberStyle.plain.positionalText decimal := by
    intro decimal
    have hdigits := Nat.newline_not_mem_toDigits decimal.digits
    unfold positionalText
    dsimp only
    split_ifs
    · simp [hdigits]
    · simp_all [NumberStyle.plain]
    · simp [hdigits]
    · simp [mt List.mem_of_mem_take hdigits, mt List.mem_of_mem_drop hdigits]
  cases value with
  | finite negative magnitude =>
      have hmagnitude : '\n' ∉ NumberStyle.plain.magnitudeText magnitude := by
        unfold magnitudeText
        dsimp only
        split_ifs with _ hplain
        · exact hpositional _
        · exact hpositional _
        · exact absurd rfl hplain
      cases negative <;> simp [NumberStyle.text, hmagnitude]
  | infinite negative => cases negative <;> decide
  | nan => decide

namespace Schema

/-- Whether a name can stand before a colon on a line. -/
def IsFieldName (name : String) : Prop := ':' ∉ name.toList ∧ '\n' ∉ name.toList

instance (name : String) : Decidable (IsFieldName name) := inferInstanceAs (Decidable (_ ∧ _))

/-- Whether a field is one line, on which its name ends at the first colon. -/
structure IsOneLine (field : Field) : Prop where
  name : IsFieldName field.1
  newline_not_mem : '\n' ∉ field.2.toList

theorem newline_not_mem_quotedList (values : List String) :
    '\n' ∉ (quotedList values).toList := by
  have hjoined : '\n' ∉ (Text.joinWith ", " (values.map quoted)).toList :=
    Text.newline_not_mem_joinWith (by decide) (by simp [newline_not_mem_quoted])
  simp [quotedList, hjoined]

theorem newline_not_mem_repr (value : Nat) : '\n' ∉ (Nat.repr value).toList := by
  rw [Nat.repr_eq_ofList_toDigits, String.toList_ofList]
  exact Nat.newline_not_mem_toDigits value

theorem newline_not_mem_truth (value : Bool) : '\n' ∉ (truth value).toList := by
  cases value <;> decide

theorem newline_not_mem_defaultText (value : DefaultValue) :
    '\n' ∉ (defaultText value).toList := by
  cases value with
  | number value => exact NumberStyle.newline_not_mem_plain_text value
  | string value => exact newline_not_mem_quoted value
  | boolean value => exact newline_not_mem_truth value
  | null => decide
  | computed => decide

theorem newline_not_mem_joinColumnText (name : String) :
    '\n' ∉ (joinColumnText name).toList := by
  simp [joinColumnText, newline_not_mem_quoted]

theorem isOneLine_mk {name value : String} (hname : IsFieldName name)
    (hvalue : '\n' ∉ value.toList) : IsOneLine (name, value) :=
  ⟨hname, hvalue⟩

theorem isOneLine_flag {name : String} (hname : IsFieldName name) (holds : Bool) :
    ∀ field ∈ flag name holds, IsOneLine field := by
  unfold flag
  split
  · exact List.forall_mem_singleton.mpr (isOneLine_mk hname (by decide))
  · exact List.forall_mem_nil _

theorem isOneLine_optional {α : Type} {name : String} (hname : IsFieldName name)
    {write : α → String} (hwrite : ∀ value, '\n' ∉ (write value).toList) (content : Option α) :
    ∀ field ∈ optional name write content, IsOneLine field := by
  cases content with
  | none => exact List.forall_mem_nil _
  | some value => exact List.forall_mem_singleton.mpr ⟨hname, hwrite value⟩

theorem isOneLine_columnFields (column : Column) :
    ∀ field ∈ columnFields column, IsOneLine field := by
  unfold columnFields
  simp only [List.forall_mem_append, List.forall_mem_singleton, and_assoc]
  refine ⟨isOneLine_mk (by decide) (newline_not_mem_quoted _), ?_,
    isOneLine_optional (by decide) newline_not_mem_repr _,
    isOneLine_optional (by decide) newline_not_mem_repr _, ?_,
    isOneLine_optional (by decide) newline_not_mem_quoted _,
    isOneLine_flag (by decide) _, isOneLine_flag (by decide) _,
    isOneLine_optional (by decide) newline_not_mem_quoted _,
    isOneLine_flag (by decide) _, isOneLine_mk (by decide) (newline_not_mem_truth _),
    isOneLine_optional (by decide) newline_not_mem_defaultText _,
    isOneLine_flag (by decide) _, isOneLine_flag (by decide) _⟩
  · split
    · exact List.forall_mem_nil _
    · exact List.forall_mem_singleton.mpr
        (isOneLine_mk (by decide) (newline_not_mem_quotedList _))
  · split
    · exact List.forall_mem_nil _
    · exact isOneLine_optional (by decide) newline_not_mem_repr _

theorem isOneLine_relationFields (relation : Relation) :
    ∀ field ∈ relationFields relation, IsOneLine field := by
  unfold relationFields
  simp only [List.forall_mem_append, List.forall_mem_cons, and_assoc]
  refine ⟨isOneLine_mk (by decide) (newline_not_mem_quoted _),
    isOneLine_mk (by decide) (newline_not_mem_quoted _),
    List.forall_mem_nil _, isOneLine_optional (by decide) newline_not_mem_quoted _, ?_,
    isOneLine_flag (by decide) _, ?_⟩
  · split
    · exact isOneLine_optional (by decide) newline_not_mem_joinColumnText _
    · exact List.forall_mem_nil _
  · split
    · simp only [List.forall_mem_append, and_assoc]
      exact ⟨isOneLine_optional (by decide) newline_not_mem_truth _,
        isOneLine_optional (by decide) (fun _ => newline_not_mem_quoted _) _,
        isOneLine_optional (by decide) (fun _ => newline_not_mem_quoted _) _⟩
    · exact List.forall_mem_nil _

theorem isOneLine_indexFields (index : Index) : ∀ field ∈ indexFields index, IsOneLine field := by
  unfold indexFields
  simp only [List.forall_mem_cons]
  exact ⟨isOneLine_mk (by decide) (newline_not_mem_quoted _),
    isOneLine_mk (by decide) (newline_not_mem_quotedList _),
    isOneLine_mk (by decide) (newline_not_mem_truth _), List.forall_mem_nil _⟩

end Schema

end EntityModel
