import CodeOutline.Proofs.Text.Order
import CodeOutline.Text.Utf8

/-! # Texts from their bytes

The bytes of a text are read as that text. The first byte of a character tells how many follow and
within which bounds, and those that follow keep to them.
-/

namespace CodeOutline.Utf8

variable {n value missing low high : Nat} {p : Pending}

theorem lead?_two : ∀ a < 32, 2 ≤ a → lead? (a + 192) = some ⟨a, 1, 0x80, 0xBF⟩ := by
  decide

theorem lead?_three : ∀ a < 16, lead? (a + 224) =
    some ⟨a, 2, if a = 0 then 0xA0 else 0x80, if a = 13 then 0x9F else 0xBF⟩ := by
  decide

theorem lead?_four : ∀ a < 5, lead? (a + 240) =
    some ⟨a, 3, if a = 0 then 0x90 else 0x80, if a = 4 then 0x8F else 0xBF⟩ := by
  decide

theorem read_start (done : List (Option Char)) (h : n < 256) :
    State.read ⟨none, done⟩ (UInt8.ofNat n) = startCharacter done n := by
  rw [State.read, UInt8.toNat_ofNat_of_lt' h]

theorem read_lead (done : List (Option Char)) (h : n < 256) (hn : 0x80 ≤ n)
    (hp : lead? n = some p) : State.read ⟨none, done⟩ (UInt8.ofNat n) = ⟨some p, done⟩ := by
  rw [read_start done h, startCharacter, if_neg (Nat.not_lt.mpr hn), hp]

theorem read_more (done : List (Option Char)) (h : n < 256) (hl : low ≤ n) (hh : n ≤ high) :
    State.read ⟨some ⟨value, missing + 2, low, high⟩, done⟩ (UInt8.ofNat n) =
      ⟨some ⟨value * 64 + (n - 0x80), missing + 1, 0x80, 0xBF⟩, done⟩ := by
  rw [State.read, UInt8.toNat_ofNat_of_lt' h]
  simp only [hl, hh, decide_true, Bool.and_self, if_true]
  rw [if_neg (by omega)]
  rfl

theorem read_last (done : List (Option Char)) (h : n < 256) (hl : low ≤ n) (hh : n ≤ high) :
    State.read ⟨some ⟨value, 1, low, high⟩, done⟩ (UInt8.ofNat n) =
      ⟨none, some (Char.ofNat (value * 64 + (n - 0x80))) :: done⟩ := by
  rw [State.read, UInt8.toNat_ofNat_of_lt' h]
  simp only [hl, hh, decide_true, Bool.and_self, if_true, Nat.le_refl]

/-- The bytes of a character are read as that character. -/
theorem foldl_read_utf8EncodeChar (done : List (Option Char)) (c : Char) :
    (String.utf8EncodeChar c).foldl State.read ⟨none, done⟩ = ⟨none, some c :: done⟩ := by
  have hc : Char.ofNat c.val.toNat = c := Char.ofNat_toNat c
  have hv := c.valid
  simp only [UInt32.isValidChar, Nat.isValidChar] at hv
  simp only [String.utf8EncodeChar]
  generalize c.val.toNat = v at hc hv
  split
  · rw [List.foldl_cons, List.foldl_nil, read_start done (by omega), startCharacter,
      if_pos (by omega), hc]
  split
  · have hlead := lead?_two (v / 64 % 32) (by omega) (by omega)
    rw [List.foldl_cons, List.foldl_cons, List.foldl_nil,
      read_lead done (by omega) (by omega) hlead,
      read_last done (by omega) (by omega) (by omega)]
    have he : v / 64 % 32 * 64 + (v % 64 + 128 - 0x80) = v := by omega
    rw [he, hc]
  split
  · have hlead := lead?_three (v / 4096 % 16) (by omega)
    rw [List.foldl_cons, List.foldl_cons, List.foldl_cons, List.foldl_nil,
      read_lead done (by omega) (by omega) hlead,
      read_more done (by omega) (by split <;> omega) (by split <;> omega),
      read_last done (by omega) (by omega) (by omega)]
    have he : (v / 4096 % 16 * 64 + (v / 64 % 64 + 128 - 0x80)) * 64 + (v % 64 + 128 - 0x80) =
        v := by omega
    rw [he, hc]
  · have hlead := lead?_four (v / 262144 % 8) (by omega)
    rw [List.foldl_cons, List.foldl_cons, List.foldl_cons, List.foldl_cons, List.foldl_nil,
      read_lead done (by omega) (by omega) hlead,
      read_more done (by omega) (by split <;> omega) (by split <;> omega),
      read_more done (by omega) (by omega) (by omega),
      read_last done (by omega) (by omega) (by omega)]
    have he : ((v / 262144 % 8 * 64 + (v / 4096 % 64 + 128 - 0x80)) * 64 +
        (v / 64 % 64 + 128 - 0x80)) * 64 + (v % 64 + 128 - 0x80) = v := by omega
    rw [he, hc]

theorem foldl_read_bytes (done : List (Option Char)) (cs : List Char) :
    (cs.flatMap String.utf8EncodeChar).foldl State.read ⟨none, done⟩ =
      ⟨none, cs.reverse.map some ++ done⟩ := by
  induction cs generalizing done with
  | nil => rfl
  | cons c cs ih =>
    rw [List.flatMap_cons, List.foldl_append, foldl_read_utf8EncodeChar, ih]
    simp

theorem mapM_id_map_some (cs : List Char) : (cs.map some).mapM id = some cs := by
  induction cs with
  | nil => rfl
  | cons c cs ih =>
    rw [List.map_cons, List.mapM_cons, ih]
    rfl

theorem decode_bytes (s : String) : decode (Text.bytes s) = s.toList.map some := by
  rw [decode, Text.bytes_eq, foldl_read_bytes, List.append_nil, List.map_reverse]
  exact List.reverse_reverse _

theorem text?_bytes (s : String) : text? (Text.bytes s) = some s := by
  rw [text?, decode_bytes, mapM_id_map_some, Option.map_some, String.ofList_toList]

end CodeOutline.Utf8
