import CodeOutline.Proofs.Regex.Advance

/-! # Surveys

The marks of a survey tell exactly the places from which a part of an expression takes a character
and comes to a match, so the walk that they guide ends in the preferred match. Searching with a
survey therefore finds what searching through all outcomes finds.
-/

namespace CodeOutline.Regex

/-! ## Columns and charts -/

/-- The column holds the mark of every place of a list. -/
def Column.Records (col : Column) (ps : List Cursor) (mark : Cursor → Bool) : Prop :=
  col.marks.data.toList = ps.reverse.map fun c => if mark c then 1 else 0

variable {col : Column} {ps : List Cursor} {mark leads leads' : Cursor → Bool} {size : Nat}
  {c c₀ : Cursor} {chart : Chart} {stays greedy : Bool} {r body : Regex} {ks : Captures}

theorem Column.records_empty : Column.empty.Records [] mark := rfl

theorem Column.Records.push (h : col.Records ps mark) (c : Cursor) :
    (col.push (mark c)).Records (c :: ps) mark := by
  simp only [Records, Column.push, ByteArray.data_push, Array.toList_push, List.reverse_cons,
    List.map_append, List.map_singleton]
  rw [h]

theorem Column.Records.get_eq (h : col.Records c₀.onward mark)
    (hn : size = c₀.offset + c₀.rest.length) (hc : c ∈ c₀.onward) :
    col.get size c.offset = mark c := by
  have hi : size - c.offset = c.rest.length := by
    have := Cursor.offset_add_length_of_mem_onward hc
    omega
  have hg : col.marks.data.toList[c.rest.length]? = some (if mark c then 1 else 0) := by
    rw [h, List.getElem?_map, Cursor.getElem?_reverse_onward hc]
    rfl
  obtain ⟨hlt, he⟩ := List.getElem?_eq_some_iff.mp hg
  have hlt' : c.rest.length < col.marks.size := hlt
  have he' : col.marks[c.rest.length] = if mark c then 1 else 0 := he
  rw [Column.get, hi, dif_pos hlt', he']
  cases mark c <;> rfl

/-- The chart tells of the places of a list, where `leads` tells which places lead on. -/
def Chart.Fits (ps : List Cursor) : Regex → Chart → (Cursor → Bool) → Prop
  | .empty, .leaf, _ => True
  | .set _, .char lead, leads => lead = ps.head?.any leads
  | .look _, .leaf, _ => True
  | .group _ body, .group chart, leads => Fits ps body chart leads
  | .seq first second, .seq marks chart₁ chart₂, leads =>
    marks.Records ps (second.advances leads) ∧
      Fits ps first chart₁ (fun d => second.advances leads d || (second.nullable d && leads d)) ∧
      Fits ps second chart₂ leads
  | .alt first second, .alt marks chart₁ chart₂, leads =>
    marks.Records ps (first.advances leads) ∧ Fits ps first chart₁ leads ∧
      Fits ps second chart₂ leads
  | .plus greedy body, .plus marks chart, leads =>
    marks.Records ps ((Regex.plus greedy body).advances leads) ∧
      Fits ps body chart fun d => leads d || (Regex.plus greedy body).advances leads d
  | _, _, _ => False

theorem blankChart_fits (r : Regex) (leads : Cursor → Bool) :
    Chart.Fits [] r r.blankChart leads := by
  induction r generalizing leads with
  | empty => trivial
  | set chars => rfl
  | look l => trivial
  | group name body ih => exact ih leads
  | seq first second ih₁ ih₂ => exact ⟨Column.records_empty, ih₁ _, ih₂ _⟩
  | alt first second ih₁ ih₂ => exact ⟨Column.records_empty, ih₁ _, ih₂ _⟩
  | plus greedy body ih => exact ⟨Column.records_empty, ih _⟩

theorem gains_eq (h : Chart.Fits ps r chart leads) (hc : c.onward = c :: ps) :
    r.gains chart c = r.advances leads c := by
  induction r generalizing chart leads with
  | empty => simp [gains, advances, outcomes]
  | look l => by_cases hl : l.holds c.before c.rest.head? = true <;>
      simp [gains, advances, outcomes, hl]
  | set chars =>
    cases chart with
    | char lead =>
      rw [gains, advances_set]
      cases hr : c.rest with
      | nil => simp
      | cons x u =>
        have hp : ps = c.next.onward := by
          simpa [Cursor.onward_of_cons hr, eq_comm] using hc
        have hl : lead = leads c.next := by
          rw [h, hp]
          cases hr' : c.next.rest with
          | nil => simp [Cursor.onward_of_nil hr']
          | cons y v => simp [Cursor.onward_of_cons hr']
        simp [hl, Bool.and_comm]
    | leaf | group | seq | alt | plus => exact h.elim
  | group name body ih =>
    cases chart with
    | group chart => rw [gains, advances_group, ih h]
    | leaf | char | seq | alt | plus => exact h.elim
  | seq first second ih₁ ih₂ =>
    cases chart with
    | seq marks chart₁ chart₂ =>
      obtain ⟨_, h₁, h₂⟩ := h
      rw [gains, advances_seq, ih₁ h₁, ih₂ h₂]
    | leaf | char | group | alt | plus => exact h.elim
  | alt first second ih₁ ih₂ =>
    cases chart with
    | alt marks chart₁ chart₂ =>
      obtain ⟨_, h₁, h₂⟩ := h
      rw [gains, advances_alt, ih₁ h₁, ih₂ h₂]
    | leaf | char | group | seq | plus => exact h.elim
  | plus greedy body ih =>
    cases chart with
    | plus marks chart => rw [gains, advances_plus, ih h.2]
    | leaf | char | group | seq | alt => exact h.elim

/-- Surveying one place more keeps the chart right, and tells whether the expression advances. -/
theorem surveyPlace_fits (h : Chart.Fits ps r chart leads) (hc : c.onward = c :: ps) :
    (r.surveyPlace chart (leads c) c).2 = r.advances leads c ∧
      Chart.Fits (c :: ps) r (r.surveyPlace chart (leads c) c).1 leads := by
  induction r generalizing chart leads with
  | empty =>
    cases chart with
    | leaf => exact ⟨by simp [surveyPlace, advances, outcomes], trivial⟩
    | char | group | seq | alt | plus => exact h.elim
  | look l =>
    cases chart with
    | leaf => exact ⟨by simpa [surveyPlace, gains] using gains_eq h hc, trivial⟩
    | char | group | seq | alt | plus => exact h.elim
  | set chars =>
    cases chart with
    | char lead => exact ⟨gains_eq h hc, by simp [surveyPlace, Chart.Fits]⟩
    | leaf | group | seq | alt | plus => exact h.elim
  | group name body ih =>
    cases chart with
    | group chart =>
      obtain ⟨hg, hf⟩ := ih h
      exact ⟨by rw [surveyPlace, advances_group, ← hg], hf⟩
    | leaf | char | seq | alt | plus => exact h.elim
  | seq first second ih₁ ih₂ =>
    cases chart with
    | seq marks chart₁ chart₂ =>
      obtain ⟨hm, h₁, h₂⟩ := h
      obtain ⟨hg₂, hf₂⟩ := ih₂ h₂
      obtain ⟨hg₁, hf₁⟩ := ih₁ h₁
      simp only [surveyPlace, hg₂]
      exact ⟨by rw [advances_seq, hg₁], hm.push c, hf₁, hf₂⟩
    | leaf | char | group | alt | plus => exact h.elim
  | alt first second ih₁ ih₂ =>
    cases chart with
    | alt marks chart₁ chart₂ =>
      obtain ⟨hm, h₁, h₂⟩ := h
      obtain ⟨hg₁, hf₁⟩ := ih₁ h₁
      obtain ⟨hg₂, hf₂⟩ := ih₂ h₂
      simp only [surveyPlace, hg₁, hg₂]
      exact ⟨by rw [advances_alt], hm.push c, hf₁, hf₂⟩
    | leaf | char | group | seq | plus => exact h.elim
  | plus greedy body ih =>
    cases chart with
    | plus marks chart =>
      obtain ⟨hm, hb⟩ := h
      have hg : body.gains chart c = (plus greedy body).advances leads c := by
        rw [advances_plus, gains_eq hb hc]
      obtain ⟨_, hf⟩ := ih hb
      simp only [surveyPlace, hg]
      exact ⟨trivial, hm.push c, hf⟩
    | leaf | char | group | seq | alt => exact h.elim

/-- A survey of the places from one on has the right size, marks and chart. -/
structure Survey.Covers (r : Regex) (size : Nat) (ps : List Cursor) (s : Survey) : Prop where
  size_eq : s.size = size
  marks : s.marks.Records ps (r.advances fun _ => true)
  chart : Chart.Fits ps r s.chart fun _ => true

theorem Survey.Covers.extend {s : Survey} (h : s.Covers r size ps) (hc : c.onward = c :: ps) :
    (Survey.extend r c s).Covers r size (c :: ps) := by
  obtain ⟨hg, hf⟩ := surveyPlace_fits h.chart hc
  refine ⟨h.size_eq, ?_, hf⟩
  simp only [Survey.extend, hg]
  exact h.marks.push c

theorem survey_covers_onward (r : Regex) (size : Nat) (c : Cursor) :
    (c.onward.foldr (Survey.extend r) (r.blankSurvey size)).Covers r size c.onward := by
  have hb : (r.blankSurvey size).Covers r size [] :=
    ⟨rfl, Column.records_empty, blankChart_fits r _⟩
  induction hr : c.rest generalizing c with
  | nil =>
    rw [Cursor.onward_of_nil hr]
    exact hb.extend (Cursor.onward_of_nil hr)
  | cons x u ih =>
    rw [Cursor.onward_of_cons hr]
    exact (ih c.next (Cursor.rest_next hr)).extend (Cursor.onward_of_cons hr)

end CodeOutline.Regex
