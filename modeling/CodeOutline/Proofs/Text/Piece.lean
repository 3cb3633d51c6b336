import Mathlib.Data.List.Nodup
import Mathlib.Data.List.Perm.Subperm
import CodeOutline.Proofs.Text.Words

/-! # Pieces of a text

A piece of a text is given with what comes before it and after it. Pieces of one text that have no
character in common are together no longer than the text.
-/

namespace CodeOutline.Text

/-- A piece of a text, between what comes before it and what comes after it. -/
structure Piece where
  before : List Char
  text : List Char
  after : List Char

namespace Piece

/-- The text that the piece is taken from. -/
def whole (p : Piece) : List Char := p.before ++ (p.text ++ p.after)

def start (p : Piece) : Nat := p.before.length

def stop (p : Piece) : Nat := p.before.length + p.text.length

/-- One of the pieces ends before the other one starts. -/
def Apart (p q : Piece) : Prop := p.stop ≤ q.start ∨ q.stop ≤ p.start

variable {p q : Piece} {ps : List Piece} {t : List Char}

/-- The offsets of the characters of a piece. -/
def offsets (p : Piece) : List Nat := List.range' p.start p.text.length

theorem mem_offsets {i : Nat} : i ∈ p.offsets ↔ p.start ≤ i ∧ i < p.stop := by
  simp [offsets, List.mem_range'_1, start, stop]

theorem stop_le (h : p.whole = t) : p.stop ≤ t.length := by
  simp [← h, whole, stop]

/-- Pieces of one text that end at one place end the same text. -/
theorem before_append_text (hw : p.whole = q.whole) (hs : p.stop = q.stop) :
    p.before ++ p.text = q.before ++ q.text := by
  simp only [whole, ← List.append_assoc] at hw
  exact List.append_inj_left hw (by simpa [stop] using hs)

theorem exists_trim (p : Piece) : ∃ q : Piece, q.whole = p.whole ∧ q.text = trimChars p.text ∧
    p.start ≤ q.start ∧ q.stop ≤ p.stop := by
  obtain ⟨lead, trail, he, -, -⟩ := exists_eq_trimChars p.text
  refine ⟨⟨p.before ++ lead, trimChars p.text, trail ++ p.after⟩, ?_, rfl, ?_, ?_⟩
  · simp only [whole, List.append_assoc]
    rw [← List.append_assoc (trimChars p.text), ← List.append_assoc lead, ← he]
  · simp [start]
  · have hl := congrArg List.length he
    simp only [List.length_append] at hl
    simp only [stop, List.length_append]
    omega

theorem Apart.disjoint (h : Apart p q) : List.Disjoint p.offsets q.offsets := by
  intro i hp hq
  rw [mem_offsets] at hp hq
  rcases h with h | h <;> omega

theorem length_flatMap_offsets (ps : List Piece) :
    (ps.flatMap offsets).length = (ps.flatMap text).length := by
  simp [List.length_flatMap, offsets]

theorem nodup_offsets (h : ps.Pairwise Apart) : (ps.flatMap offsets).Nodup := by
  rw [List.nodup_flatMap]
  constructor
  · intro p _
    exact List.nodup_range'
  · exact h.imp Apart.disjoint

/-- Pieces that are apart from each other are together no longer than their text. -/
theorem length_flatMap_le (h : ps.Pairwise Apart) (hw : ∀ p ∈ ps, p.whole = t) :
    (ps.flatMap text).length ≤ t.length := by
  have hsub : ps.flatMap offsets ⊆ List.range t.length := by
    intro i hi
    obtain ⟨p, hp, hi⟩ := List.mem_flatMap.mp hi
    have := stop_le (hw p hp)
    rw [mem_offsets] at hi
    simp
    omega
  have hle := (List.subperm_of_subset (nodup_offsets h) hsub).length_le
  rwa [length_flatMap_offsets, List.length_range] at hle

theorem length_le_of_not_blank (h : ∀ p ∈ ps, ¬ Blank p.text) :
    ps.length ≤ (ps.flatMap text).length := by
  induction ps with
  | nil => simp
  | cons p ps ih =>
    obtain ⟨hp, hps⟩ := List.forall_mem_cons.mp h
    have hone := length_pos_of_not_blank hp
    have hle := ih hps
    simp only [List.length_cons, List.flatMap_cons, List.length_append]
    omega

end Piece

end CodeOutline.Text
