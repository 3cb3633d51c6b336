import Mathlib.Algebra.Group.Nat.Defs
import Mathlib.Data.List.Basic
import CodeOutline.Text.Utf8

/-! # ASCII in decoded texts

A decoded text has an ASCII character exactly where its bytes have the code of it. No character of
several bytes is one of ASCII, because whatever bytes a pending character still takes lead to the
code point of a character above.
-/

namespace CodeOutline.Utf8

variable {done : List (Option Char)} {a b n : Nat} {p : Pending} {s : State}

/-- All code points that the bytes to come can lead to are characters above ASCII. -/
structure Pending.Sound (p : Pending) (k : Nat) : Prop where
  missing : p.missing = k + 1
  low : 0x80 ≤ p.low
  high : p.high ≤ 0xBF
  above : 0x80 ≤ (p.value * 64 + (p.low - 0x80)) * 64 ^ k
  valid : (p.value * 64 + (p.high - 0x80) + 1) * 64 ^ k ≤ 0xD800 ∨
    0xE000 ≤ (p.value * 64 + (p.low - 0x80)) * 64 ^ k ∧
      (p.value * 64 + (p.high - 0x80) + 1) * 64 ^ k ≤ 0x110000

/-- A pending character, if there is one, is sound. -/
def State.Sound (s : State) : Prop :=
  ∀ p, s.pending = some p → ∃ k, p.Sound k

theorem ofNat_inj (hn : n.isValidChar) (ha : a.isValidChar) :
    Char.ofNat n = Char.ofNat a ↔ n = a := by
  have ht : ∀ {m : Nat}, m.isValidChar → (Char.ofNat m).toNat = m := by
    intro m hm
    rw [Char.ofNat, dif_pos hm]
    rfl
  constructor
  · intro he
    rw [← ht hn, he, ht ha]
  · rintro rfl
    rfl

theorem lead?_sound (h : lead? b = some p) : ∃ k, p.Sound k := by
  simp only [lead?, Bool.and_eq_true, decide_eq_true_eq, beq_iff_eq] at h
  repeat' split at h
  case isFalse => exact absurd h nofun
  -- What is left is the arithmetic of the seven kinds of first bytes.
  all_goals
    obtain rfl := Option.some.inj h
    refine ⟨_, rfl, ?_, ?_, ?_, ?_⟩ <;> dsimp only <;> omega

/-- A byte within the bounds keeps a pending character sound. -/
theorem Pending.Sound.next {k : Nat} (h : p.Sound (k + 1)) (hl : p.low ≤ b) (hh : b ≤ p.high) :
    Pending.Sound ⟨p.value * 64 + (b - 0x80), p.missing - 1, 0x80, 0xBF⟩ k := by
  have hpow : 64 ^ (k + 1) = 64 * 64 ^ k := by rw [Nat.pow_succ, Nat.mul_comm]
  have habove := h.above
  have hvalid := h.valid
  rw [hpow, ← Nat.mul_assoc, ← Nat.mul_assoc] at hvalid
  rw [hpow, ← Nat.mul_assoc] at habove
  have hlow : (p.value * 64 + (p.low - 0x80)) * 64 * 64 ^ k ≤
      ((p.value * 64 + (b - 0x80)) * 64 + (0x80 - 0x80)) * 64 ^ k :=
    Nat.mul_le_mul_right _ (by omega)
  have hhigh : ((p.value * 64 + (b - 0x80)) * 64 + (0xBF - 0x80) + 1) * 64 ^ k ≤
      (p.value * 64 + (p.high - 0x80) + 1) * 64 * 64 ^ k :=
    Nat.mul_le_mul_right _ (by have := h.high; omega)
  have hmissing := h.missing
  exact ⟨by dsimp only; omega, Nat.le_refl _, Nat.le_refl _, by dsimp only; omega,
    by dsimp only; omega⟩

theorem Pending.Sound.ofNat_ne (h : p.Sound 0) (hl : p.low ≤ b) (hh : b ≤ p.high)
    (ha : a < 0x80) : Char.ofNat (p.value * 64 + (b - 0x80)) ≠ Char.ofNat a := by
  have habove := h.above
  have hvalid := h.valid
  have hlow := h.low
  rw [Nat.pow_zero, Nat.mul_one] at habove
  rw [Nat.pow_zero, Nat.mul_one, Nat.mul_one] at hvalid
  rw [Ne, ofNat_inj (by rw [Nat.isValidChar]; omega) (by rw [Nat.isValidChar]; omega)]
  omega

theorem startCharacter_sound (done : List (Option Char)) (b : Nat) :
    (startCharacter done b).Sound := by
  intro p hp
  rw [startCharacter] at hp
  split at hp
  · cases hp
  split at hp
  · rename_i hl
    cases hp
    exact lead?_sound hl
  · cases hp

theorem mem_startCharacter (ha : a < 0x80) :
    some (Char.ofNat a) ∈ (startCharacter done b).done ↔ b = a ∨ some (Char.ofNat a) ∈ done := by
  rw [startCharacter]
  split
  · rename_i hb
    rw [List.mem_cons, Option.some_inj, eq_comm,
      ofNat_inj (by rw [Nat.isValidChar]; omega) (by rw [Nat.isValidChar]; omega)]
  · rename_i hb
    have hne : b ≠ a := by omega
    split <;> simp [hne]

theorem State.Sound.read (h : s.Sound) (byte : UInt8) : (s.read byte).Sound := by
  rw [State.read]
  split
  · exact startCharacter_sound _ _
  · rename_i p hp
    split
    · rename_i hb
      rw [Bool.and_eq_true, decide_eq_true_eq, decide_eq_true_eq] at hb
      obtain ⟨k, hk⟩ := h p hp
      dsimp only
      split
      · nofun
      · rename_i hm
        have hmissing := hk.missing
        obtain ⟨k, rfl⟩ := Nat.exists_eq_succ_of_ne_zero (by omega : k ≠ 0)
        intro q hq
        obtain rfl := Option.some.inj hq
        exact ⟨k, hk.next hb.1 hb.2⟩
    · exact startCharacter_sound _ _

theorem State.Sound.mem_read (h : s.Sound) (byte : UInt8) (ha : a < 0x80) :
    some (Char.ofNat a) ∈ (s.read byte).done ↔ byte.toNat = a ∨ some (Char.ofNat a) ∈ s.done := by
  rw [State.read]
  split
  · exact mem_startCharacter ha
  · rename_i p hp
    split
    · rename_i hb
      rw [Bool.and_eq_true, decide_eq_true_eq, decide_eq_true_eq] at hb
      obtain ⟨k, hk⟩ := h p hp
      have hlow := hk.low
      have hne : byte.toNat ≠ a := by omega
      dsimp only
      split
      · rename_i hm
        have hmissing := hk.missing
        obtain rfl : k = 0 := by omega
        simp [hne, (hk.ofNat_ne hb.1 hb.2 ha).symm]
      · simp [hne]
    · rw [mem_startCharacter ha]
      simp

theorem mem_foldl_read (h : s.Sound) (bytes : List UInt8) (ha : a < 0x80) :
    some (Char.ofNat a) ∈ (bytes.foldl State.read s).done ↔
      (∃ byte ∈ bytes, byte.toNat = a) ∨ some (Char.ofNat a) ∈ s.done := by
  induction bytes generalizing s with
  | nil => simp
  | cons byte bytes ih =>
    rw [List.foldl_cons, ih (h.read byte), h.mem_read byte ha, List.exists_mem_cons_iff, or_left_comm, or_assoc]

/-- A text has a character of ASCII exactly if its bytes have the code of it. -/
theorem mem_replacedText (ha : a < 0x80) (bytes : List UInt8) :
    Char.ofNat a ∈ (replacedText bytes).toList ↔ UInt8.ofNat a ∈ bytes := by
  have hstart : State.Sound ⟨none, []⟩ := nofun
  have hdone := mem_foldl_read hstart bytes ha
  have hbyte : (∃ byte ∈ bytes, byte.toNat = a) ↔ UInt8.ofNat a ∈ bytes := by
    have ht : (UInt8.ofNat a).toNat = a := 
      UInt8.toNat_ofNat_of_lt' (Nat.lt_trans ha (by decide))
    constructor
    · rintro ⟨byte, hm, hb⟩
      rwa [← hb, UInt8.ofNat_toNat]
    · exact fun hm => ⟨_, hm, ht⟩
  have hfinish : some (Char.ofNat a) ∈ decode bytes ↔ UInt8.ofNat a ∈ bytes := by
    rw [decode, State.finish, List.mem_reverse, ← hbyte]
    split <;> simpa using hdone
  have hreplacement : replacement ≠ Char.ofNat a := by
    rw [Ne, replacement, ← Char.ofNat_toNat (c := '\uFFFD'),
      ofNat_inj (by decide) (by rw [Nat.isValidChar]; omega)]
    have hr : ('\uFFFD').toNat = 0xFFFD := rfl
    omega
  rw [replacedText, String.toList_ofList, ← hfinish, List.mem_map]
  constructor
  · rintro ⟨o, ho, he⟩
    cases o with
    | none => exact absurd he hreplacement
    | some c =>
      obtain rfl : c = Char.ofNat a := he
      exact ho
  · intro ho
    exact ⟨_, ho, rfl⟩

theorem lineFeed_mem_replacedText (bytes : List UInt8) :
    '\n' ∈ (replacedText bytes).toList ↔ 10 ∈ bytes :=
  mem_replacedText (by decide : 10 < 0x80) bytes

end CodeOutline.Utf8
