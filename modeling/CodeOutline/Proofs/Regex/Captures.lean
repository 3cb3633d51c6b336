import Mathlib.Data.List.Pairwise
import CodeOutline.Proofs.Regex.Matches
import CodeOutline.Proofs.Regex.Spelling
import CodeOutline.Proofs.Text.Piece

/-! # Where captures stand

All that a match captures stands between its two ends, and where no group is inside of another one
the captures follow one another. So the captured texts are pieces of the text that is searched.
-/

namespace CodeOutline

namespace Cursor

variable {c d : Cursor} {t : List Char}

theorem exists_eq_of_mem_onward_start (h : c ∈ (start t).onward) :
    ∃ u, t = u ++ c.rest ∧ c.offset = u.length ∧ c.before = u.getLast? := by
  obtain ⟨u, v, hu, rfl⟩ := mem_onward.mp h
  have hr : ((start t).past u).rest = v := rest_past hu
  refine ⟨u, by rw [hr]; exact hu, ?_, ?_⟩
  · rw [offset_past hu]
    exact Nat.zero_add _
  · rcases List.eq_nil_or_concat u with rfl | ⟨w, x, rfl⟩
    · rfl
    · rw [List.concat_eq_append] at hu ⊢
      simpa using before_past hu

end Cursor

namespace Regex

open Text (Piece)

variable {r : Regex} {c d e : Cursor} {ks : Captures} {κ κ' : Capture} {o : Cursor × Captures}
  {m : Match} {t u : List Char} {name name' : String}

/-- A capture made on the way from one place to another. -/
structure Capture.Between (κ : Capture) (c d : Cursor) : Prop where
  start : κ.start ∈ c.onward
  stop : ∃ e ∈ κ.start.onward, d ∈ e.onward ∧ κ.stop = e.offset

theorem Capture.Between.mono (h : κ.Between c d) (he : e ∈ d.onward) : κ.Between c e := by
  obtain ⟨hs, f, hf, hd, hstop⟩ := h
  exact ⟨hs, f, hf, Cursor.mem_onward_trans hd he, hstop⟩

theorem between_of_mem_outcomes (h : o ∈ r.outcomes c []) :
    ∀ κ ∈ o.2, κ.Between c o.1 := by
  refine (keeps_of_mem_outcomes (I := fun d ks => d ∈ c.onward ∧ ∀ κ ∈ ks, κ.Between c d)
    ?_ ?_ ⟨c.self_mem_onward, by simp⟩ h).2
  · rintro d x u ks hd ⟨hon, hks⟩
    have hn := Cursor.next_mem_onward hd
    exact ⟨Cursor.mem_onward_trans hon hn, fun κ hκ => (hks κ hκ).mono hn⟩
  · rintro g - d ks ⟨hd, -⟩ o ho ⟨hon, hks⟩
    refine ⟨hon, List.forall_mem_cons.mpr ⟨⟨hd, o.1, ?_, o.1.self_mem_onward, rfl⟩, hks⟩⟩
    exact outcomes_forward g.2 d ks o ho

/-! ## Captures one after the other -/

/-- One of the captures ends before the other one starts. -/
def Capture.Apart (κ κ' : Capture) : Prop :=
  κ.stop ≤ κ'.start.offset ∨ κ'.stop ≤ κ.start.offset

instance : Std.Symm Capture.Apart := ⟨fun _ _ => Or.symm⟩

/-- No group is inside of another one. -/
def flat (r : Regex) : Bool :=
  r.groups.all fun g => g.2.groups.isEmpty

/-- Without groups in groups, a capture starts where the one before has ended. -/
theorem pairwise_of_flat (hr : r.flat = true) (h : o ∈ r.outcomes c []) :
    o.2.Pairwise fun κ κ' => κ'.stop ≤ κ.start.offset := by
  refine (keeps_of_mem_outcomes
    (I := fun d ks => ks.Pairwise (fun κ κ' => κ'.stop ≤ κ.start.offset) ∧
      ∀ κ ∈ ks, κ.stop ≤ d.offset) ?_ ?_ ⟨.nil, by simp⟩ h).1
  · rintro d x u ks hd ⟨hp, hks⟩
    refine ⟨hp, fun κ hκ => ?_⟩
    have := hks κ hκ
    rw [Cursor.offset_next hd]
    omega
  · rintro g hg d ks ⟨-, hks⟩ o ho ⟨hp, hks'⟩
    have hn : g.2.groups = [] := by
      simpa using List.all_eq_true.mp hr g hg
    have he := captures_eq_of_noGroups hn ho
    refine ⟨List.pairwise_cons.mpr ⟨fun κ hκ => hks κ (he ▸ hκ), hp⟩, ?_⟩
    exact List.forall_mem_cons.mpr ⟨Nat.le_refl _, hks'⟩

/-! ## Captured pieces -/

/-- What has been captured, as a piece of the text. -/
def Capture.piece (κ : Capture) (t : List Char) : Piece :=
  ⟨t.take κ.start.offset, κ.text, t.drop κ.stop⟩

/-- The piece of a text that a group of a match has captured. A group that took no part stands for
the empty piece at the end of the match. -/
def Match.piece (m : Match) (t : List Char) (name : String) : Piece :=
  match m.captures.find? name with
  | some κ => κ.piece t
  | none => ⟨t.take m.stop, [], t.drop m.stop⟩

/-- A piece between the two ends of a match. -/
structure Match.Holds (m : Match) (t : List Char) (p : Piece) : Prop where
  whole : p.whole = t
  start : m.start.offset ≤ p.start
  stop : p.stop ≤ m.stop

theorem Capture.Between.exists_eq (hc : c ∈ (Cursor.start t).onward) (h : κ.Between c d) :
    ∃ u w, t = u ++ (κ.text ++ w) ∧ κ.start.offset = u.length ∧
      κ.stop = u.length + κ.text.length := by
  obtain ⟨u, hu, ho, -⟩ :=
    Cursor.exists_eq_of_mem_onward_start (Cursor.mem_onward_trans hc h.start)
  obtain ⟨e, he, -, hstop⟩ := h.stop
  obtain ⟨v, w, hv, rfl⟩ := Cursor.mem_onward.mp he
  have hoff := Cursor.offset_past hv
  have htext : κ.text = v := by
    rw [Capture.text, Cursor.textTo, hstop, hoff, Nat.add_sub_cancel_left, hv, List.take_left]
  exact ⟨u, w, by rw [htext, ← hv, ← hu], ho, by rw [hstop, hoff, ho, htext]⟩

theorem Capture.Between.whole_piece (hc : c ∈ (Cursor.start t).onward) (h : κ.Between c d) :
    (κ.piece t).whole = t := by
  obtain ⟨u, w, ht, hstart, hstop⟩ := h.exists_eq hc
  have htake : t.take κ.start.offset = u := by rw [ht, hstart, List.take_left]
  have hdrop : t.drop κ.stop = w := by
    rw [hstop, ← List.length_append, ht, ← List.append_assoc, List.drop_left]
  rw [Capture.piece, Piece.whole, htake, hdrop, ht]

theorem Capture.Between.start_piece (hc : c ∈ (Cursor.start t).onward) (h : κ.Between c d) :
    (κ.piece t).start = κ.start.offset := by
  obtain ⟨u, w, ht, hstart, -⟩ := h.exists_eq hc
  rw [Capture.piece, Piece.start, hstart, ht, List.take_left]

theorem Capture.Between.stop_piece (hc : c ∈ (Cursor.start t).onward) (h : κ.Between c d) :
    (κ.piece t).stop = κ.stop := by
  have hs : (κ.piece t).stop = (κ.piece t).start + κ.text.length := rfl
  obtain ⟨u, w, -, hstart, hstop⟩ := h.exists_eq hc
  rw [hs, h.start_piece hc, hstart, hstop]

theorem Match.text_piece (m : Match) (t : List Char) (name : String) :
    (m.piece t name).text = (m.group? name).getD [] := by
  rw [Match.piece, Match.group?]
  cases m.captures.find? name <;> rfl

theorem Match.start_piece_of_none (h : m.captures.find? name = none) (hm : m.stop ≤ t.length) :
    (m.piece t name).start = m.stop := by
  simp [Match.piece, h, Piece.start, hm]

theorem Match.stop_piece_of_none (h : m.captures.find? name = none) (hm : m.stop ≤ t.length) :
    (m.piece t name).stop = m.stop := by
  simp [Match.piece, h, Piece.stop, hm]

theorem stop_le_of_mem_allMatches (hm : m ∈ r.allMatches t) : m.start.offset ≤ m.stop ∧
    m.stop ≤ t.length := by
  obtain ⟨hc, d, hd, hstop⟩ := mem_onward_of_mem_allMatches hm
  have hon := mem_onward_of_preferred? hd
  have hsum := Cursor.offset_add_length_of_mem_onward (Cursor.mem_onward_trans hc hon)
  have hle := Cursor.offset_le_of_mem_onward hon
  simp only [Cursor.start] at hsum
  omega

theorem holds_piece (hm : m ∈ r.allMatches t) (name : String) :
    m.Holds t (m.piece t name) := by
  obtain ⟨hle, hlen⟩ := stop_le_of_mem_allMatches hm
  obtain ⟨hc, d, hd, hstop⟩ := mem_onward_of_mem_allMatches hm
  cases hf : m.captures.find? name with
  | none =>
    constructor
    · simp [Match.piece, hf, Piece.whole]
    · rwa [Match.start_piece_of_none hf hlen]
    · exact Nat.le_of_eq (Match.stop_piece_of_none hf hlen)
  | some κ =>
    have hb := between_of_mem_outcomes (List.mem_of_head? hd) κ (List.mem_of_find?_eq_some hf)
    obtain ⟨e, -, hde, he⟩ := hb.stop
    rw [Match.piece, hf]
    constructor
    · exact hb.whole_piece hc
    · rw [hb.start_piece hc]
      exact Cursor.offset_le_of_mem_onward hb.start
    · rw [hb.stop_piece hc, he, hstop]
      exact Cursor.offset_le_of_mem_onward hde

theorem apart_of_find? (hks : ks.Pairwise fun κ κ' => κ'.stop ≤ κ.start.offset)
    (hf : ks.find? name = some κ) (hf' : ks.find? name' = some κ') (hne : name ≠ name') :
    κ.Apart κ' := by
  have hn : κ.name = name := by simpa using List.find?_some hf
  have hn' : κ'.name = name' := by simpa using List.find?_some hf'
  have hκ : κ ≠ κ' := by
    rintro rfl
    exact hne (hn.symm.trans hn')
  have hapart : ks.Pairwise Capture.Apart := hks.imp Or.inr
  exact hapart.forall (List.mem_of_find?_eq_some hf) (List.mem_of_find?_eq_some hf') hκ

/-- Two groups capture pieces that are apart, when no group is inside of another. -/
theorem apart_piece (hr : r.flat = true) (hm : m ∈ r.allMatches t) (hne : name ≠ name') :
    (m.piece t name).Apart (m.piece t name') := by
  have hlen := (stop_le_of_mem_allMatches hm).2
  have hs := (holds_piece hm name).stop
  have hs' := (holds_piece hm name').stop
  cases hf : m.captures.find? name with
  | none => exact Or.inr ((Match.start_piece_of_none hf hlen).symm ▸ hs')
  | some κ =>
    cases hf' : m.captures.find? name' with
    | none => exact Or.inl ((Match.start_piece_of_none hf' hlen).symm ▸ hs)
    | some κ' =>
      obtain ⟨hc, d, hd, -⟩ := mem_onward_of_mem_allMatches hm
      have ho := List.mem_of_head? hd
      have hb := between_of_mem_outcomes ho κ (List.mem_of_find?_eq_some hf)
      have hb' := between_of_mem_outcomes ho κ' (List.mem_of_find?_eq_some hf')
      rw [Match.piece, hf, Match.piece, hf']
      unfold Piece.Apart
      rw [hb.start_piece hc, hb.stop_piece hc, hb'.start_piece hc, hb'.stop_piece hc]
      exact apart_of_find? (pairwise_of_flat hr ho) hf hf' hne

/-! ## Readings in order -/

/-- What there is for each reading of a list, in order. What holds between two members of the list
holds between those whose readings they are. -/
theorem exists_map_eq_filterMap {α β γ : Type} (f : α → Option β) (sig : γ → β)
    (P : α → γ → Prop) {T : α → α → Prop} {as : List α} (hT : as.Pairwise T)
    (h : ∀ a ∈ as, ∀ b, f a = some b → ∃ g, sig g = b ∧ P a g) :
    ∃ gs : List γ, gs.map sig = as.filterMap f ∧ (∀ g ∈ gs, ∃ a ∈ as, P a g) ∧
      gs.Pairwise fun g g' => ∃ a a', T a a' ∧ P a g ∧ P a' g' := by
  induction as with
  | nil => exact ⟨[], rfl, by simp, .nil⟩
  | cons a as ih =>
    obtain ⟨ha, has⟩ := List.forall_mem_cons.mp h
    obtain ⟨hTa, hT⟩ := List.pairwise_cons.mp hT
    obtain ⟨gs, hmap, hgs, hp⟩ := ih hT has
    have hgs' : ∀ g ∈ gs, ∃ a' ∈ a :: as, P a' g := by
      intro g hg
      obtain ⟨a', ha', hP⟩ := hgs g hg
      exact ⟨a', List.mem_cons_of_mem a ha', hP⟩
    cases hf : f a with
    | none =>
      rw [List.filterMap_cons_none hf]
      exact ⟨gs, hmap, hgs', hp⟩
    | some b =>
      obtain ⟨g, hg, hP⟩ := ha b hf
      rw [List.filterMap_cons_some hf]
      refine ⟨g :: gs, by simp [hg, hmap],
        List.forall_mem_cons.mpr ⟨⟨a, List.mem_cons_self, hP⟩, hgs'⟩,
        List.pairwise_cons.mpr ⟨?_, hp⟩⟩
      intro g' hg'
      obtain ⟨a', ha', hP'⟩ := hgs g' hg'
      exact ⟨a, a', hTa a' ha', hP, hP'⟩

end Regex

end CodeOutline
