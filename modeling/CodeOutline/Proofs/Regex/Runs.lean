import CodeOutline.Proofs.Regex.Matches
import CodeOutline.Proofs.Regex.Spelling

/-! # Runs of characters

An expression that starts with a loop over a set can take one more character of the set in front. So
from inside of a run of such characters a search finds a match only where it comes there from a
match before. Where every match ends with another character, matches start at the start of a run.
-/

namespace CodeOutline.Regex

/-- An expression takes runs of characters: a match from inside of a run can start before it too, and
none ends in a run. -/
structure TakesRuns (r : Regex) (run : Char → Bool) : Prop where
  consumes : r.consumes = true
  next : ∀ c x u, c.rest = x :: u → run x = true → r.preferred? c = none →
    r.preferred? c.next = none
  ends : ∀ c d ks, r.preferred? c = some (d, ks) → ∀ x ∈ d.before, run x = false

variable {r : Regex} {rs : List Regex} {c d : Cursor} {ks : Captures} {o : Cursor × Captures}
  {s : CharSet} {run : Char → Bool} {x : Char} {u text : List Char} {name : String} {m : Match}

theorem preferred?_eq_none : r.preferred? c = none ↔ ∀ o, o ∉ r.outcomes c [] := by
  rw [preferred?, List.head?_eq_none_iff, List.eq_nil_iff_forall_not_mem]

theorem exists_mem_outcomes (h : o ∈ r.outcomes c ks) (ks' : Captures) :
    ∃ o', o' ∈ r.outcomes c ks' := by
  rw [outcomes_eq_map] at h ⊢
  obtain ⟨p, hp, -⟩ := List.mem_map.mp h
  exact ⟨_, List.mem_map.mpr ⟨p, hp, rfl⟩⟩

/-- A captured loop over a set that comes first can take one more character in front. -/
theorem preferred?_next_of_group_plus (hc : c.rest = x :: u) (hx : s.contains x = true)
    (h : (concat (group name (plus true (set s)) :: rs)).preferred? c = none) :
    (concat (group name (plus true (set s)) :: rs)).preferred? c.next = none := by
  rw [preferred?_eq_none] at h ⊢
  intro o ho
  obtain ⟨v, d, hv, hs, hd⟩ := exists_of_mem_outcomes_group_cons rfl ho
  have hread : Reads c (x :: v) d := by
    constructor
    · rw [hc, List.cons_append, ← hv.rest, Cursor.rest_next hc]
    · rw [hv.place, Cursor.past_cons]
  have hspell : Spells (plus true (set s)) (x :: v) := .again (.set hx) hs
  obtain ⟨o', ho'⟩ := exists_mem_outcomes hd (⟨name, c, d.offset⟩ :: [])
  apply h o'
  apply mem_outcomes_concat_cons.mpr
  exact ⟨_, List.mem_map.mpr ⟨_, mem_outcomes_plus_set hread hspell, rfl⟩, ho'⟩

theorem before_of_preferred? (rs : List Regex)
    (h : (concat (rs ++ [.char x])).preferred? c = some (d, ks)) : d.before = some x := by
  obtain ⟨u, hu, hs⟩ := spells_of_mem_outcomes (List.mem_of_head? h)
  obtain ⟨v, rfl⟩ := exists_eq_append_of_spells hs
  have hd : d = c.past (v ++ [x]) := hu.place
  rw [hd]
  exact Cursor.before_past hu.rest

/-! ## Searches -/

/-- From a place where no match starts inside of a run, the search finds none that does. -/
theorem before_of_mem_matchesFrom (h : TakesRuns r run)
    (hc : ∀ x ∈ c.before, run x = true → r.preferred? c = none)
    (hm : m ∈ matchesFrom r.preferred? c) : ∀ x ∈ m.start.before, run x = false := by
  -- By induction on what is left of the text: a match ends outside of runs, and where none starts
  -- before a character of a run, none starts after it.
  induction hn : c.rest.length using Nat.strongRecOn generalizing c with
  | ind n ih =>
    cases ha : r.preferred? c with
    | some o =>
      obtain ⟨d, ks⟩ := o
      rw [matchesFrom_of_some h.consumes ha, List.mem_cons] at hm
      rcases hm with rfl | hm
      · intro x hx
        rw [← Bool.not_eq_true]
        intro hrun
        rw [hc x hx hrun] at ha
        cases ha
      · refine ih d.rest.length (hn ▸ length_rest_lt_of_preferred? h.consumes ha) ?_ hm rfl
        intro x hx hrun
        rw [h.ends c d ks ha x hx] at hrun
        cases hrun
    | none =>
      cases hrest : c.rest with
      | nil =>
        rw [matchesFrom_of_end h.consumes hrest] at hm
        cases hm
      | cons x u =>
        rw [matchesFrom_of_none ha hrest] at hm
        refine ih c.next.rest.length (hn ▸ length_rest_next hrest) ?_ hm rfl
        intro y hy hrun
        rw [Cursor.next_eq hrest] at hy
        cases hy
        exact h.next c x u hrest hrun ha

theorem before_of_mem_allMatches (h : TakesRuns r run)
    (hm : m ∈ r.allMatches text) : ∀ x ∈ m.start.before, run x = false := by
  rw [allMatches_eq_matchesFrom h.consumes] at hm
  apply before_of_mem_matchesFrom h _ hm
  simp [Cursor.start]

end CodeOutline.Regex
