import Mathlib.Data.List.Basic
import Mathlib.Tactic.SplitIfs

/-!
# The order of bytes

Texts are ordered by their characters. The bytes of their UTF-8 forms have the same order
(`bytes_lt_bytes_iff`): of two characters the lesser one has the lesser form, whatever follows.
-/

namespace EntityModel.Text

/-- The bytes of a text in UTF-8. -/
def bytes (text : String) : List UInt8 := text.toUTF8.data.toList

theorem bytes_eq_flatMap (text : String) :
    bytes text = text.toList.flatMap String.utf8EncodeChar := by
  rw [bytes, String.toUTF8_eq_toByteArray, ← String.utf8Encode_toList, List.utf8Encode,
    List.toList_data_toByteArray]

/-- The form of a lesser character is less, whatever follows. Longer forms start with greater
bytes; of two forms of one length the first byte that differs decides. -/
theorem utf8EncodeChar_append_lt {first second : Char} (hlt : first < second)
    (rest others : List UInt8) :
    String.utf8EncodeChar first ++ rest < String.utf8EncodeChar second ++ others := by
  have hcode : first.val.toNat < second.val.toNat := UInt32.lt_iff_toNat_lt.mp hlt
  have hbound : second.val.toNat < 0x110000 :=
    second.valid.elim (fun hlow => Nat.lt_trans hlow (by decide)) And.right
  -- The digits of a code in base 64, each from the next one.
  have htwo : ∀ code, code / 4096 = code / 64 / 64 := by omega
  have hthree : ∀ code, code / 262144 = code / 64 / 64 / 64 := by omega
  simp only [String.utf8EncodeChar, htwo, hthree]
  generalize first.val.toNat = code at *
  generalize second.val.toNat = greater at *
  split_ifs <;>
    simp only [List.cons_append, List.nil_append, List.cons_lt_cons_iff, UInt8.lt_iff_toNat_lt,
      ← UInt8.toNat_inj, UInt8.toNat_ofNat'] <;> omega

theorem flatMap_utf8EncodeChar_lt {first second : List Char} (hlt : first < second) :
    first.flatMap String.utf8EncodeChar < second.flatMap String.utf8EncodeChar := by
  induction first generalizing second with
  | nil =>
      cases second with
      | nil => exact absurd hlt (List.lt_irrefl [])
      | cons char rest =>
          rw [List.flatMap_nil, List.flatMap_cons]
          cases hform : String.utf8EncodeChar char with
          | nil => exact absurd hform String.utf8EncodeChar_ne_nil
          | cons byte bytes => exact List.nil_lt_cons _ _
  | cons char rest ih =>
      cases second with
      | nil => exact absurd hlt (List.not_lt_nil _)
      | cons other others =>
          rw [List.flatMap_cons, List.flatMap_cons]
          rcases List.cons_lt_cons_iff.mp hlt with hchar | ⟨rfl, hrest⟩
          · exact utf8EncodeChar_append_lt hchar _ _
          · exact List.append_left_lt (ih hrest)

/-- Texts have the order of their bytes. -/
theorem bytes_lt_bytes_iff {first second : String} :
    bytes first < bytes second ↔ first < second := by
  have hmono : ∀ {first second : String}, first < second → bytes first < bytes second := by
    intro first second hlt
    rw [bytes_eq_flatMap, bytes_eq_flatMap]
    exact flatMap_utf8EncodeChar_lt hlt
  refine ⟨fun hbytes => ?_, hmono⟩
  by_contra hnot
  rcases eq_or_ne first second with rfl | hne
  · exact List.lt_irrefl _ hbytes
  · have hgreater : second < first :=
      Std.lt_of_le_of_ne (String.not_lt.mp hnot) hne.symm
    exact List.lt_asymm hbytes (hmono hgreater)

theorem bytes_inj {first second : String} : bytes first = bytes second ↔ first = second := by
  refine ⟨fun hbytes => ?_, congrArg bytes⟩
  rcases Std.lt_trichotomy first second with hlt | heq | hlt
  · exact absurd (hbytes ▸ bytes_lt_bytes_iff.mpr hlt) (List.lt_irrefl _)
  · exact heq
  · exact absurd (hbytes ▸ bytes_lt_bytes_iff.mpr hlt) (List.lt_irrefl _)

/-- Lists of texts are ordered text by text, each by its bytes. -/
theorem map_bytes_lt_map_bytes_iff {first second : List String} :
    first.map bytes < second.map bytes ↔ first < second := by
  induction first generalizing second with
  | nil => cases second <;> simp
  | cons text rest ih =>
      cases second with
      | nil => simp
      | cons other others =>
          rw [List.map_cons, List.map_cons, List.cons_lt_cons_iff, List.cons_lt_cons_iff,
            bytes_lt_bytes_iff, bytes_inj, ih]

end EntityModel.Text
