import Mathlib.Data.List.Basic

/-! # The order of texts

Texts are ordered by their code points. In UTF-8 that is the order of their bytes: where the codes
of two characters part, the smaller character has the smaller byte.
-/

namespace CodeOutline.Text

/-- The bytes of a text in UTF-8. -/
def bytes (s : String) : List UInt8 :=
  s.toUTF8.data.toList

/-- Two lists of bytes part at bytes that are in order. -/
inductive Parts : List UInt8 → List UInt8 → Prop
  | head {x y : UInt8} {u v : List UInt8} : x < y → Parts (x :: u) (y :: v)
  | tail {x : UInt8} {u v : List UInt8} : Parts u v → Parts (x :: u) (x :: v)

variable {u v : List UInt8} {a b : Nat} {c d : Char}

theorem Parts.append_lt (h : Parts u v) (s t : List UInt8) : u ++ s < v ++ t := by
  induction h with
  | head hxy => exact List.cons_lt_cons_iff.mpr (Or.inl hxy)
  | tail _ ih => exact List.cons_lt_cons_iff.mpr (Or.inr ⟨rfl, ih⟩)

theorem parts_ofNat (ha : a < 256) (hb : b < 256) (h : a < b ∨ (a = b ∧ Parts u v)) :
    Parts (UInt8.ofNat a :: u) (UInt8.ofNat b :: v) := by
  rcases h with h | ⟨rfl, h⟩
  · exact .head ((UInt8.ofNat_lt_iff_lt ha hb).mpr h)
  · exact .tail h

/-- Where the first bytes do not part, the rest does. -/
theorem parts_ofNat_of_le (ha : a < 256) (hb : b < 256) (hab : a ≤ b) (h : a = b → Parts u v) :
    Parts (UInt8.ofNat a :: u) (UInt8.ofNat b :: v) := by
  refine parts_ofNat ha hb ?_
  rcases Nat.lt_or_eq_of_le hab with hlt | he
  · exact Or.inl hlt
  · exact Or.inr ⟨he, h he⟩

theorem parts_utf8EncodeChar (h : c < d) :
    Parts (String.utf8EncodeChar c) (String.utf8EncodeChar d) := by
  have hcd : c.val.toNat < d.val.toNat := h
  have hd : d.val.toNat ≤ 0x10FFFF := by
    have := d.valid
    simp only [UInt32.isValidChar, Nat.isValidChar] at this
    omega
  simp only [String.utf8EncodeChar]
  generalize c.val.toNat = m at hcd
  generalize d.val.toNat = n at hcd hd
  -- Characters with more bytes have greater first bytes; those with as many part at some digit.
  split
  · split
    · exact parts_ofNat (by omega) (by omega) (Or.inl hcd)
    · split
      · exact parts_ofNat (by omega) (by omega) (Or.inl (by omega))
      · split
        · exact parts_ofNat (by omega) (by omega) (Or.inl (by omega))
        · exact parts_ofNat (by omega) (by omega) (Or.inl (by omega))
  · split
    · split
      · omega
      · split
        · refine parts_ofNat_of_le (by omega) (by omega) (by omega) fun h₁ => ?_
          exact parts_ofNat (by omega) (by omega) (Or.inl (by omega))
        · split
          · exact parts_ofNat (by omega) (by omega) (Or.inl (by omega))
          · exact parts_ofNat (by omega) (by omega) (Or.inl (by omega))
    · split
      · split
        · omega
        · split
          · omega
          · split
            · refine parts_ofNat_of_le (by omega) (by omega) (by omega) fun h₁ => ?_
              refine parts_ofNat_of_le (by omega) (by omega) (by omega) fun h₂ => ?_
              exact parts_ofNat (by omega) (by omega) (Or.inl (by omega))
            · exact parts_ofNat (by omega) (by omega) (Or.inl (by omega))
      · split
        · omega
        · split
          · omega
          · split
            · omega
            · refine parts_ofNat_of_le (by omega) (by omega) (by omega) fun h₁ => ?_
              refine parts_ofNat_of_le (by omega) (by omega) (by omega) fun h₂ => ?_
              refine parts_ofNat_of_le (by omega) (by omega) (by omega) fun h₃ => ?_
              exact parts_ofNat (by omega) (by omega) (Or.inl (by omega))

theorem bytes_eq (s : String) : bytes s = s.toList.flatMap String.utf8EncodeChar := by
  have h : s.toByteArray = s.toList.utf8Encode := by
    conv_lhs => rw [← String.ofList_toList (s := s)]
    exact String.toByteArray_ofList
  rw [bytes, String.toUTF8_eq_toByteArray, h]
  exact List.toList_data_toByteArray

theorem bytes_lt_of_lt {s t : String} (h : s < t) : bytes s < bytes t := by
  rw [bytes_eq, bytes_eq]
  rw [String.lt_iff] at h
  generalize s.toList = u at h
  generalize t.toList = v at h
  induction h with
  | nil =>
    rename_i d ds
    rw [List.flatMap_nil, List.flatMap_cons]
    cases hd : String.utf8EncodeChar d with
    | nil => exact absurd hd String.utf8EncodeChar_ne_nil
    | cons x w => exact List.nil_lt_cons x _
  | rel hcd =>
    rw [List.flatMap_cons, List.flatMap_cons]
    exact (parts_utf8EncodeChar hcd).append_lt _ _
  | cons _ ih =>
    rename_i c _ _ _
    rw [List.flatMap_cons, List.flatMap_cons]
    induction String.utf8EncodeChar c with
    | nil => exact ih
    | cons x w ihw => exact List.cons_lt_cons_iff.mpr (Or.inr ⟨rfl, ihw⟩)

theorem bytes_lt_iff {s t : String} : bytes s < bytes t ↔ s < t := by
  refine ⟨fun h => ?_, bytes_lt_of_lt⟩
  rcases Std.lt_trichotomy s t with hlt | rfl | hgt
  · exact hlt
  · exact absurd h (List.lt_irrefl _)
  · exact absurd (List.lt_trans h (bytes_lt_of_lt hgt)) (List.lt_irrefl _)

end CodeOutline.Text
