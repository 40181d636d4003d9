import Mathlib.Data.List.Basic
import Mathlib.Data.String.Basic

/-!
# The order of the bytes

Texts are ordered by their characters, and so are their bytes: the encoding of a smaller character
is smaller, whatever comes after it (`encode_append_lt`). It has fewer bytes and then begins with a
smaller one, or it has as many, which are the digits of its code.
-/

namespace Conductor.Text

def bytes (text : String) : List UInt8 :=
  text.toUTF8.data.toList

theorem bytes_eq (text : String) : bytes text = text.toList.flatMap String.utf8EncodeChar := by
  have htext : text.toUTF8 = text.toList.utf8Encode := by
    rw [← String.toByteArray_ofList, String.ofList_toList]
    rfl
  rw [bytes, htext, List.utf8Encode, List.data_toByteArray]

theorem code_lt (c : Char) : c.val.toNat < 64 * 64 * 64 * 8 := by
  have hvalid := c.valid
  simp only [UInt32.isValidChar, Nat.isValidChar] at hvalid
  omega

/-- What comes after two characters does not matter if one is smaller than the other. -/
theorem encode_append_lt {a b : Char} (h : a < b) (later more : List UInt8) :
    String.utf8EncodeChar a ++ later < String.utf8EncodeChar b ++ more := by
  have hcode : a.val.toNat < b.val.toNat := h
  have hlast := code_lt b
  simp only [String.utf8EncodeChar]
  generalize a.val.toNat = m at *
  generalize b.val.toNat = n at *
  -- every digit but the last one is taken from the one before it
  have hdigits (k : Nat) : k / 4096 = k / 64 / 64 ∧ k / 262144 = k / 64 / 64 / 64 := by omega
  simp only [hdigits]
  by_cases hlater : later < more
  all_goals
    -- the encoding of the greater character is not the shorter one
    repeat' split
    all_goals try omega
    -- the digits are compared, the first ones first
    all_goals
      simp only [List.cons_append, List.nil_append, List.cons_lt_cons_iff, UInt8.lt_iff_toNat_lt,
        ← UInt8.toNat_inj, UInt8.toNat_ofNat', hlater, and_true, and_false, or_false]
      omega

/-- The bytes of a smaller text are smaller. -/
theorem bytes_lt {a b : String} (h : a < b) : bytes a < bytes b := by
  rw [bytes_eq, bytes_eq]
  rw [String.lt_iff] at h
  generalize a.toList = cs at h
  generalize b.toList = ds at h
  induction ds generalizing cs with
  | nil => exact absurd h (List.not_lt_nil cs)
  | cons d ds ih =>
    rw [List.flatMap_cons]
    cases cs with
    | nil =>
      have hsome : String.utf8EncodeChar d ≠ [] := String.utf8EncodeChar_ne_nil
      obtain ⟨byte, more, hbytes⟩ := List.exists_cons_of_ne_nil hsome
      rw [hbytes]
      exact List.nil_lt_cons ..
    | cons c cs =>
      rw [List.flatMap_cons]
      rcases List.cons_lt_cons_iff.mp h with hlt | ⟨rfl, hlt⟩
      · exact encode_append_lt hlt _ _
      · exact List.append_left_lt (ih cs hlt)

/-- The bytes of names are in the order of the names. -/
theorem map_bytes_lt {a b : List String} (h : a < b) : a.map bytes < b.map bytes := by
  induction b generalizing a with
  | nil => exact absurd h (List.not_lt_nil a)
  | cons name b ih =>
    cases a with
    | nil => exact List.nil_lt_cons ..
    | cons other a =>
      rcases List.cons_lt_cons_iff.mp h with hlt | ⟨rfl, hlt⟩
      · exact List.cons_lt_cons_iff.mpr (.inl (bytes_lt hlt))
      · exact List.cons_lt_cons_iff.mpr (.inr ⟨rfl, ih hlt⟩)

end Conductor.Text
