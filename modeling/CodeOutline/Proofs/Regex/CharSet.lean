import CodeOutline.Regex.Pattern
import CodeOutline.Rule.Builtin
import CodeOutline.Text.Blank

/-! # Sets of characters

Joining sorted ranges keeps the code points that they cover, whatever the ranges are, and the gaps
between joined ranges have all the others. The sets of the built-in rules are, in ASCII, the
characters that the tests on characters accept.
-/

namespace CodeOutline.Unicode

/-- A code point is in one of the ranges. -/
def Covered (rs : List Range) (n : Nat) : Prop :=
  ∃ r ∈ rs, r.1 ≤ n ∧ n ≤ r.2

variable {rs rs' : List Range} {r : Range} {n : Nat}

theorem covered_cons : Covered (r :: rs) n ↔ (r.1 ≤ n ∧ n ≤ r.2) ∨ Covered rs n := by
  simp [Covered]

theorem covered_append : Covered (rs ++ rs') n ↔ Covered rs n ∨ Covered rs' n := by
  simp [Covered, or_and_right, exists_or]

theorem covered_congr (h : ∀ r, r ∈ rs ↔ r ∈ rs') : Covered rs n ↔ Covered rs' n := by
  simp [Covered, h]

theorem covered_joinRange (h : ∀ last ∈ rs.head?, last.1 ≤ r.1) :
    Covered (joinRange rs r) n ↔ Covered rs n ∨ (r.1 ≤ n ∧ n ≤ r.2) := by
  cases rs with
  | nil => simp [joinRange, Covered]
  | cons last earlier =>
    have hle : last.1 ≤ r.1 := h last rfl
    rw [joinRange]
    split
    · rw [covered_cons, covered_cons]
      constructor
      · rintro (⟨hl, hr⟩ | he)
        · by_cases hn : n ≤ last.2
          · exact Or.inl (Or.inl ⟨hl, hn⟩)
          · exact Or.inr ⟨by omega, by omega⟩
        · exact Or.inl (Or.inr he)
      · rintro ((⟨hl, hr⟩ | he) | ⟨hl, hr⟩)
        · exact Or.inl ⟨hl, by omega⟩
        · exact Or.inr he
        · exact Or.inl ⟨by omega, by omega⟩
    · rw [covered_cons, or_comm]

theorem head_joinRange_le (h : ∀ last ∈ rs.head?, last.1 ≤ r.1) :
    ∀ last ∈ (joinRange rs r).head?, last.1 ≤ r.1 := by
  cases rs with
  | nil => simp [joinRange]
  | cons last earlier =>
    have hle : last.1 ≤ r.1 := h last rfl
    rw [joinRange]
    split <;> simp [hle]

/-- Along sorted ranges, the last one joined never starts after those still to come. -/
theorem covered_foldl_joinRange (hs : rs.Pairwise fun a b => a.1 ≤ b.1) (done : List Range)
    (hd : ∀ last ∈ done.head?, ∀ r ∈ rs, last.1 ≤ r.1) :
    Covered (rs.foldl joinRange done) n ↔ Covered done n ∨ Covered rs n := by
  induction rs generalizing done with
  | nil => simp [Covered]
  | cons r rs ih =>
    obtain ⟨hr, hs⟩ := List.pairwise_cons.mp hs
    have hle : ∀ last ∈ done.head?, last.1 ≤ r.1 := fun last hl => hd last hl r List.mem_cons_self
    have hd' : ∀ last ∈ (joinRange done r).head?, ∀ r' ∈ rs, last.1 ≤ r'.1 :=
      fun last hl r' hr' => Nat.le_trans (head_joinRange_le hle last hl) (hr r' hr')
    rw [List.foldl_cons, ih hs _ hd', covered_joinRange hle, covered_cons, or_assoc]

theorem pairwise_mergeSort_ranges (rs : List Range) :
    (rs.mergeSort fun a b => a.1 ≤ b.1).Pairwise fun a b => a.1 ≤ b.1 := by
  have h : (rs.mergeSort fun a b => decide (a.1 ≤ b.1)).Pairwise
      fun a b => decide (a.1 ≤ b.1) = true :=
    List.pairwise_mergeSort
      (fun a b c hab hbc => by simp only [decide_eq_true_eq] at hab hbc ⊢; omega)
      (fun a b => by simp only [Bool.or_eq_true, decide_eq_true_eq]; omega) rs
  simpa using h

theorem covered_mergeRanges : Covered (mergeRanges rs) n ↔ Covered rs n := by
  rw [mergeRanges, covered_congr fun r => List.mem_reverse,
    covered_foldl_joinRange (pairwise_mergeSort_ranges rs) [] (by simp),
    covered_congr fun r => List.mem_mergeSort]
  simp [Covered]

/-! ## Gaps -/

/-- Ranges in order and apart from each other. -/
def Apart (rs : List Range) : Prop :=
  rs.Pairwise fun a b => a.2 < b.1

theorem apart_joinRange (hv : ∀ x ∈ rs, x.1 ≤ x.2) (ha : Apart rs.reverse)
    (h : ∀ last ∈ rs.head?, last.1 ≤ r.1) : Apart (joinRange rs r).reverse := by
  cases rs with
  | nil => simp [joinRange, Apart]
  | cons last earlier =>
    have hle : last.1 ≤ r.1 := h last rfl
    have hlast : last.1 ≤ last.2 := hv last List.mem_cons_self
    simp only [Apart, List.reverse_cons, List.pairwise_append, List.mem_reverse,
      List.mem_singleton, List.pairwise_singleton, true_and] at ha
    rw [joinRange]
    split
    · simp only [Apart, List.reverse_cons, List.pairwise_append, List.mem_reverse,
        List.mem_singleton, List.pairwise_singleton, true_and]
      refine ⟨ha.1, ?_⟩
      rintro a ha' b rfl
      exact ha.2 a ha' last rfl
    · simp only [Apart, List.reverse_cons, List.pairwise_append, List.mem_reverse,
        List.mem_singleton, List.pairwise_singleton, true_and, List.mem_append]
      refine ⟨ha, ?_⟩
      rintro a (ha' | rfl) b rfl
      · have := ha.2 a ha' last rfl
        omega
      · omega

theorem valid_joinRange (hv : ∀ x ∈ rs, x.1 ≤ x.2) (hr : r.1 ≤ r.2) :
    ∀ x ∈ joinRange rs r, x.1 ≤ x.2 := by
  cases rs with
  | nil => simpa [joinRange] using hr
  | cons last earlier =>
    obtain ⟨hlast, hearlier⟩ := List.forall_mem_cons.mp hv
    rw [joinRange]
    split
    · exact List.forall_mem_cons.mpr ⟨by dsimp only; omega, hearlier⟩
    · exact List.forall_mem_cons.mpr ⟨hr, hv⟩

theorem apart_foldl_joinRange (hs : rs.Pairwise fun a b => a.1 ≤ b.1)
    (hv : ∀ x ∈ rs, x.1 ≤ x.2) (done : List Range) (hdv : ∀ x ∈ done, x.1 ≤ x.2)
    (hda : Apart done.reverse) (hd : ∀ last ∈ done.head?, ∀ r ∈ rs, last.1 ≤ r.1) :
    Apart (rs.foldl joinRange done).reverse ∧ ∀ x ∈ rs.foldl joinRange done, x.1 ≤ x.2 := by
  induction rs generalizing done with
  | nil => exact ⟨hda, hdv⟩
  | cons r rs ih =>
    obtain ⟨hr, hs⟩ := List.pairwise_cons.mp hs
    obtain ⟨hrv, hv⟩ := List.forall_mem_cons.mp hv
    have hle : ∀ last ∈ done.head?, last.1 ≤ r.1 := fun last hl => hd last hl r List.mem_cons_self
    exact ih hs hv _ (valid_joinRange hdv hrv) (apart_joinRange hdv hda hle)
      fun last hl r' hr' => Nat.le_trans (head_joinRange_le hle last hl) (hr r' hr')

theorem apart_mergeRanges (hv : ∀ x ∈ rs, x.1 ≤ x.2) :
    Apart (mergeRanges rs) ∧ ∀ x ∈ mergeRanges rs, x.1 ≤ x.2 := by
  obtain ⟨ha, hmv⟩ := apart_foldl_joinRange (pairwise_mergeSort_ranges rs)
    (fun x hx => hv x (List.mem_mergeSort.mp hx)) [] (by simp) List.Pairwise.nil (by simp)
  exact ⟨ha, fun x hx => hmv x (List.mem_reverse.mp hx)⟩

/-- Between ranges that are apart, the gaps have what no range has. -/
theorem covered_gaps (hn : n ≤ 0x10FFFF) (ha : Apart rs) (hv : ∀ x ∈ rs, x.1 ≤ x.2) (next : Nat)
    (done : List Range) (hnext : ∀ x ∈ rs, next ≤ x.1) :
    Covered (gaps next done rs) n ↔ Covered done n ∨ (next ≤ n ∧ ¬ Covered rs n) := by
  induction rs generalizing next done with
  | nil =>
    rw [gaps, covered_congr fun r => List.mem_reverse]
    split
    · rw [covered_cons, or_comm]
      simp [Covered, hn]
    · rw [or_iff_left]
      omega
  | cons r rs ih =>
    obtain ⟨har, ha⟩ := List.pairwise_cons.mp ha
    obtain ⟨hr, hv⟩ := List.forall_mem_cons.mp hv
    obtain ⟨hnr, hnext⟩ := List.forall_mem_cons.mp hnext
    -- No range after the first one reaches down to a number before that one's end.
    have hlow : n ≤ r.2 → ¬ Covered rs n := by
      rintro hle ⟨x, hx, hl, _⟩
      have := har x hx
      omega
    rw [gaps, ih ha hv _ _ fun x hx => har x hx, covered_cons]
    have hd : Covered (if next < r.1 then (next, r.1 - 1) :: done else done) n ↔
        Covered done n ∨ (next ≤ n ∧ n < r.1) := by
      split
      · rw [covered_cons, or_comm]
        refine or_congr_right ?_
        dsimp only
        omega
      · rw [or_iff_left]
        omega
    rw [hd, or_assoc]
    refine or_congr_right ?_
    by_cases hc : Covered rs n
    · have : r.2 < n := Nat.lt_of_not_le fun h => hlow h hc
      simp only [hc, or_true, not_true_eq_false, and_false, or_false, iff_false]
      omega
    · simp only [hc, not_false_eq_true, and_true, or_false]
      omega

theorem covered_complementRanges (hn : n ≤ 0x10FFFF) (hv : ∀ x ∈ rs, x.1 ≤ x.2) :
    Covered (complementRanges rs) n ↔ ¬ Covered rs n := by
  obtain ⟨ha, hmv⟩ := apart_mergeRanges hv
  rw [complementRanges, covered_gaps hn ha hmv 0 [] (by simp), covered_mergeRanges]
  simp [Covered]

end CodeOutline.Unicode

namespace CodeOutline.Regex.CharSet

variable {s t : CharSet} {c : Char}

theorem contains_iff : s.contains c = true ↔ Unicode.Covered s.ranges c.toNat := by
  simp [contains, Unicode.Covered]

theorem contains_union (s t : CharSet) (c : Char) :
    (s.union t).contains c = (s.contains c || t.contains c) := by
  rw [Bool.eq_iff_iff, Bool.or_eq_true, contains_iff, contains_iff, contains_iff, union, ofRanges,
    Unicode.covered_mergeRanges, Unicode.covered_append]

theorem contains_singleton (x c : Char) : (singleton x).contains c = (c == x) := by
  rw [Bool.eq_iff_iff, beq_iff_eq]
  simp only [contains, singleton, ofRange, List.any_cons, List.any_nil, Bool.or_false,
    Bool.and_eq_true, decide_eq_true_eq]
  constructor
  · intro h
    exact Char.toNat_inj.mp (by omega)
  · rintro rfl
    omega

theorem toNat_le (c : Char) : c.toNat ≤ 0x10FFFF := by
  have h := c.valid
  simp only [UInt32.isValidChar, Nat.isValidChar] at h
  have : c.toNat = c.val.toNat := rfl
  omega

@[simp] theorem contains_any (c : Char) : any.contains c = true := by
  have := toNat_le c
  simp [contains, any, this]

theorem contains_complement (hv : ∀ x ∈ s.ranges, x.1 ≤ x.2) (c : Char) :
    s.complement.contains c = !s.contains c := by
  rw [Bool.eq_iff_iff, Bool.not_eq_true', ← Bool.not_eq_true, contains_iff, contains_iff]
  exact Unicode.covered_complementRanges (toNat_le c) hv

theorem contains_complement_code (n : Nat) (c : Char) :
    (complement ⟨[(n, n)]⟩).contains c = (c.toNat != n) := by
  rw [contains_complement (by simp), Bool.eq_iff_iff]
  simp only [contains, List.any_cons, List.any_nil, Bool.or_false, Bool.not_eq_true',
    Bool.and_eq_false_iff, decide_eq_false_iff_not, bne_iff_ne]
  omega

theorem complement_eq {rs gs : List Unicode.Range}
    (hs : rs.Pairwise fun a b => decide (a.1 ≤ b.1) = true)
    (hg : Unicode.gaps 0 [] (rs.foldl Unicode.joinRange []).reverse = gs) :
    complement ⟨rs⟩ = ⟨gs⟩ := by
  rw [complement, Unicode.complementRanges, Unicode.mergeRanges, List.mergeSort_of_pairwise hs, hg]

theorem contains_blank (c : Char) : blank.contains c = Text.isBlank c := by
  rw [Bool.eq_iff_iff]
  simp [contains, blank, Unicode.blankRanges, Text.isBlank]
  omega

/-- In ASCII the characters of words are letters, digits and the underscore. -/
theorem contains_word_of_ascii (h : c.toNat < 128) :
    word.contains c = (⟨[(0x30, 0x39), (0x41, 0x5A), (0x5F, 0x5F), (0x61, 0x7A)]⟩ : CharSet).contains
      c := by
  have hb (rs : List Unicode.Range) : ¬ Unicode.Covered (Unicode.beyondAscii rs) c.toNat := by
    rintro ⟨r, hr, hl, _⟩
    have := (List.mem_filter.mp hr).2
    simp only [decide_eq_true_eq] at this
    omega
  rw [Bool.eq_iff_iff, contains_iff, contains_iff, word, Unicode.wordRanges, Unicode.covered_append,
    or_iff_left (hb _)]

end CodeOutline.Regex.CharSet

namespace CodeOutline.Rule.Builtin

open Regex

/-- A letter, a digit or an underscore. -/
def isNameChar (c : Char) : Bool := c.isAlphanum || c == '_'

/-- A letter or an underscore. -/
def isNameStart (c : Char) : Bool := c.isAlpha || c == '_'

variable {c : Char}

theorem isAlpha_iff (c : Char) : c.isAlpha = true ↔
    (0x41 ≤ c.toNat ∧ c.toNat ≤ 0x5A) ∨ (0x61 ≤ c.toNat ∧ c.toNat ≤ 0x7A) := by
  have h : c.isAlpha = (decide (c.val ≥ 'A'.val ∧ c.val ≤ 'Z'.val) ||
      (decide (c.val ≥ 'a'.val) && decide (c.val ≤ 'z'.val))) := rfl
  simp [h, UInt32.le_iff_toNat_le]

theorem contains_nameChar (c : Char) : nameChar.contains c = isNameChar c := by
  have h : c = '_' ↔ c.toNat = 0x5F := Char.toNat_inj.symm
  rw [Bool.eq_iff_iff]
  simp [CharSet.contains, nameChar, isNameChar, Char.isAlphanum, isAlpha_iff, Char.isDigit, h,
    UInt32.le_iff_toNat_le]
  omega

theorem contains_nameStart (c : Char) : nameStart.contains c = isNameStart c := by
  have h : c = '_' ↔ c.toNat = 0x5F := Char.toNat_inj.symm
  rw [Bool.eq_iff_iff]
  simp [CharSet.contains, nameStart, isNameStart, isAlpha_iff, h]
  omega

end CodeOutline.Rule.Builtin
