import CodeOutline.Proofs.Regex.Preferred
import CodeOutline.Proofs.Regex.Reach

/-! # Searches through blocks of text

A search goes on at the end of each match and passes over the places where no match starts. In a
text made of blocks, each with one match at its start and none in what the match leaves over, it
finds these matches in order and nothing else.
-/

namespace CodeOutline.Regex

/-- The search that accepts every outcome. -/
def accept : Follow := fun c ks => some (c, ks)

theorem preferred?_eq (r : Regex) (c : Cursor) : r.preferred? c = r.reach? accept c [] := by
  cases h : r.outcomes c [] <;> simp [preferred?, reach?, accept, h]

variable {attempt : Cursor → Option (Cursor × Captures)} {s : Search} {c d e : Cursor}
  {ks : Captures} {u v : List Char} {σ : Type} {read : Match → Option σ} {x : σ}

theorem foldl_visit_eq_self {ps : List Cursor}
    (h : ∀ c ∈ ps, c.offset < s.resume ∨ attempt c = none) :
    ps.foldl (Search.visit attempt) s = s := by
  induction ps with
  | nil => rfl
  | cons c ps ih =>
    have hv : Search.visit attempt s c = s := by
      rw [Search.visit]
      split
      · rfl
      · rename_i hlt
        rw [(h c List.mem_cons_self).resolve_left hlt]
    rw [List.foldl_cons, hv, ih fun d hd => h d (List.mem_cons_of_mem c hd)]

theorem foldl_visit_past (h : c.rest = u ++ v) (hn : ∀ d ∈ c.along u, attempt d = none) :
    c.onward.foldl (Search.visit attempt) s =
      (c.past u).onward.foldl (Search.visit attempt) s := by
  rw [Cursor.onward_append h, List.foldl_append,
    foldl_visit_eq_self fun d hd => Or.inr (hn d hd)]

theorem foldl_visit_match (hs : s.resume ≤ c.offset) (ha : attempt c = some (d, ks))
    (hd : d ∈ c.onward) (hne : d.offset ≠ c.offset) :
    c.onward.foldl (Search.visit attempt) s = d.onward.foldl (Search.visit attempt)
      ⟨d.offset, some d.offset, ⟨c, d.offset, ks⟩ :: s.found⟩ := by
  obtain ⟨u, v, hc, rfl⟩ := Cursor.mem_onward.mp hd
  cases u with
  | nil => exact absurd rfl hne
  | cons y u =>
    have hv : Search.visit attempt s c = ⟨(c.past (y :: u)).offset, some (c.past (y :: u)).offset,
        ⟨c, (c.past (y :: u)).offset, ks⟩ :: s.found⟩ := by
      simp only [Search.visit, if_neg (Nat.not_lt.mpr hs), ha, hne, decide_false, Bool.false_and,
        if_neg Bool.false_ne_true]
    have hlt : ∀ e ∈ c.next.along u, e.offset < (c.past (y :: u)).offset := by
      intro e he
      obtain ⟨w, z, w', rfl, rfl⟩ := Cursor.mem_along.mp he
      have hn : c.next.rest = w ++ (z :: w' ++ v) :=
        (Cursor.rest_next hc).trans (List.append_assoc w (z :: w') v)
      rw [Cursor.offset_past hn, Cursor.offset_past hc, Cursor.offset_next hc]
      simp only [List.length_cons, List.length_append]
      omega
    rw [Cursor.onward_append hc, Cursor.along, List.cons_append, List.foldl_cons, hv,
      List.foldl_append]
    congr 1
    exact foldl_visit_eq_self fun e he => Or.inl (hlt e he)

theorem attempt_of_mem_found {ps : List Cursor} {m : Match}
    (h : m ∈ (ps.foldl (Search.visit attempt) s).found) :
    m ∈ s.found ∨ m.start ∈ ps ∧ ∃ d, attempt m.start = some (d, m.captures) ∧
      m.stop = d.offset := by
  induction ps generalizing s with
  | nil => exact Or.inl h
  | cons c ps ih =>
    rcases ih h with hm | ⟨hm, ha⟩
    · rw [Search.visit] at hm
      split at hm
      · exact Or.inl hm
      · split at hm
        · exact Or.inl hm
        · rename_i d ks ha
          split at hm
          · exact Or.inl hm
          · rcases List.mem_cons.mp hm with rfl | hm
            · exact Or.inr ⟨List.mem_cons_self, d, ha, rfl⟩
            · exact Or.inl hm
    · exact Or.inr ⟨List.mem_cons_of_mem c hm, ha⟩

theorem mem_onward_of_mem_allMatches {r : Regex} {text : List Char} {m : Match}
    (h : m ∈ r.allMatches text) : m.start ∈ (Cursor.start text).onward ∧
      ∃ d, r.preferred? m.start = some (d, m.captures) ∧ m.stop = d.offset := by
  rw [allMatches_eq, matchesBy, List.mem_reverse, Cursor.places_eq] at h
  exact (attempt_of_mem_found h).resolve_left List.not_mem_nil

theorem preferred?_of_mem_allMatches {r : Regex} {text : List Char} {m : Match}
    (h : m ∈ r.allMatches text) : ∃ d, r.preferred? m.start = some (d, m.captures) := by
  obtain ⟨-, d, hd, -⟩ := mem_onward_of_mem_allMatches h
  exact ⟨d, hd⟩

/-- Of two matches found the later one does not start before the earlier one ends, and none ends
after the offset where the search resumes. -/
structure Search.Orderly (s : Search) : Prop where
  apart : s.found.Pairwise fun m m' => m'.stop ≤ m.start.offset
  passed : ∀ m ∈ s.found, m.stop ≤ s.resume

theorem Search.Orderly.visit (h : s.Orderly)
    (hd : ∀ d ks, attempt c = some (d, ks) → c.offset ≤ d.offset) :
    (Search.visit attempt s c).Orderly := by
  rw [Search.visit]
  split
  · exact h
  · rename_i hs
    split
    · exact h
    · rename_i d ks ha
      split
      · exact h
      · have hle := hd d ks ha
        constructor
        · rw [List.pairwise_cons]
          refine ⟨fun m hm => ?_, h.apart⟩
          have := h.passed m hm
          simp only
          omega
        · simp only [List.mem_cons, forall_eq_or_imp, Nat.le_refl, true_and]
          intro m hm
          have := h.passed m hm
          omega

theorem pairwise_allMatches (r : Regex) (text : List Char) :
    (r.allMatches text).Pairwise fun m m' => m.stop ≤ m'.start.offset := by
  have hd : ∀ c d ks, r.preferred? c = some (d, ks) → c.offset ≤ d.offset := by
    intro c d ks h
    exact Cursor.offset_le_of_mem_onward (outcomes_forward r c [] (d, ks) (List.mem_of_head? h))
  have horderly : ∀ (ps : List Cursor) (s : Search), s.Orderly →
      (ps.foldl (Search.visit r.preferred?) s).Orderly := by
    intro ps
    induction ps with
    | nil => exact fun s h => h
    | cons c ps ih => exact fun s h => ih _ (h.visit (hd c))
  rw [allMatches_eq, matchesBy, List.pairwise_reverse]
  exact (horderly _ _ ⟨.nil, fun m hm => absurd hm List.not_mem_nil⟩).apart

/-- From one place a search finds a match that reads as asked, and no other match before it comes
to another place. -/
def Finds (attempt : Cursor → Option (Cursor × Captures)) (read : Match → Option σ) (c : Cursor)
    (x : σ) (e : Cursor) : Prop :=
  ∃ d ks u, attempt c = some (d, ks) ∧ d ∈ c.onward ∧ d.offset ≠ c.offset ∧
    read ⟨c, d.offset, ks⟩ = some x ∧ d.rest = u ++ e.rest ∧ e = d.past u ∧
    ∀ p ∈ d.along u, attempt p = none

theorem foldl_visit_of_finds (h : Finds attempt read c x e) (hs : s.resume ≤ c.offset) :
    ∃ s' : Search, s'.resume ≤ e.offset ∧
      c.onward.foldl (Search.visit attempt) s = e.onward.foldl (Search.visit attempt) s' ∧
      s'.found.reverse.filterMap read = s.found.reverse.filterMap read ++ [x] := by
  obtain ⟨d, ks, u, ha, hd, hne, hx, hr, rfl, hn⟩ := h
  refine ⟨⟨d.offset, some d.offset, ⟨c, d.offset, ks⟩ :: s.found⟩, ?_, ?_, ?_⟩
  · exact Nat.le_trans (Nat.le_add_right _ _) (Nat.le_of_eq (Cursor.offset_past hr).symm)
  · rw [foldl_visit_match hs ha hd hne, foldl_visit_past hr hn]
  · simp [hx]

/-- What an expression reaches from a place is found there, and nothing else in a text that is
left over, when it is refused before every character of that. -/
theorem finds_of_reaches {r : Regex} {l t : List Char} (hc : c.rest = u ++ (l ++ t)) (hne : u ≠ [])
    (hr : Reaches (fun d ks => d.rest = l ++ t ∧ read ⟨c, d.offset, ks⟩ = some x)
      (r.reach? accept c []))
    (hl : ∀ v y w, l = v ++ y :: w → Refuses (r.reach? accept) (y :: (w ++ t))) :
    Finds r.preferred? read c x (c.past (u ++ l)) := by
  obtain ⟨d, ks, hd, hrest, hx⟩ := hr
  rw [← preferred?_eq] at hd
  have hon : d ∈ c.onward := outcomes_forward r c [] (d, ks) (List.mem_of_head? hd)
  obtain ⟨u', v', hu', rfl⟩ := Cursor.mem_onward.mp hon
  rw [Cursor.rest_past hu'] at hrest
  obtain rfl : u' = u := List.append_cancel_right ((hrest ▸ hu').symm.trans hc)
  refine ⟨c.past u', ks, l, hd, hon, ?_, hx, ?_, Cursor.past_append c u' l, ?_⟩
  · rw [Cursor.offset_past hu']
    have := List.length_pos_iff.mpr hne
    omega
  · rw [Cursor.past_append, Cursor.rest_past (Cursor.rest_past hc), Cursor.rest_past hc]
  · intro p hp
    obtain ⟨v, y, w, rfl, rfl⟩ := Cursor.mem_along.mp hp
    have hr : ((c.past u').past v).rest = y :: (w ++ t) :=
      Cursor.rest_past ((Cursor.rest_past hc).trans (List.append_assoc v (y :: w) t))
    rw [preferred?_eq]
    have := hl v y w rfl ((c.past u').past v).offset ((c.past u').past v).before []
    rwa [← hr] at this

/-- What may come after a block: the end of the text, or a character that is no blank. -/
def Opens (t : List Char) : Prop :=
  ∀ x ∈ t.head?, Text.isBlank x = false

/-- A block of text: its first character is no blank, and it ends with a line end. -/
structure IsBlock (t : List Char) : Prop where
  opens : ∃ x u, t = x :: u ∧ Text.isBlank x = false
  ends : ∃ u, t = u ++ ['\n']

theorem IsBlock.opens_append (h : IsBlock u) (v : List Char) : Opens (u ++ v) := by
  obtain ⟨x, w, rfl, hx⟩ := h.opens
  intro y hy
  obtain rfl : x = y := by simpa using hy
  exact hx

theorem IsBlock.before_past (h : IsBlock u) (hc : c.rest = u ++ v) :
    (c.past u).before = some '\n' := by
  obtain ⟨w, rfl⟩ := h.ends
  exact Cursor.before_past hc

section Blocks

variable {δ : Type} {block : δ → List Char} {reading : δ → σ} {ds : List δ}

theorem opens_flatMap (hb : ∀ d ∈ ds, IsBlock (block d)) : Opens (ds.flatMap block) := by
  cases ds with
  | nil => simp [Opens]
  | cons d ds => exact (hb d List.mem_cons_self).opens_append _

theorem filterMap_foldl_visit (hb : ∀ d ∈ ds, IsBlock (block d))
    (hend : ∀ c, c.rest = [] → attempt c = none)
    (hf : ∀ d ∈ ds, ∀ c t, Look.isWord true c.before = false → Opens t →
      c.rest = block d ++ t → Finds attempt read c (reading d) (c.past (block d)))
    (hw : Look.isWord true c.before = false) (hc : c.rest = ds.flatMap block)
    (hs : s.resume ≤ c.offset) :
    (c.onward.foldl (Search.visit attempt) s).found.reverse.filterMap read =
      s.found.reverse.filterMap read ++ ds.map reading := by
  induction ds generalizing c s with
  | nil =>
    have hn : c.onward.foldl (Search.visit attempt) s = s := by
      rw [Cursor.onward_of_nil hc]
      refine foldl_visit_eq_self fun d hd => Or.inr ?_
      rw [List.mem_singleton.mp hd, hend c hc]
    rw [hn, List.map_nil, List.append_nil]
  | cons d ds ih =>
    have hb' : ∀ d' ∈ ds, IsBlock (block d') := fun d' hd' => hb d' (List.mem_cons_of_mem d hd')
    have hc' : c.rest = block d ++ ds.flatMap block := by rw [hc, List.flatMap_cons]
    obtain ⟨s', hs', he, hx⟩ := foldl_visit_of_finds
      (hf d List.mem_cons_self c _ hw (opens_flatMap hb') hc') hs
    rw [he, ih hb' (fun d' hd' => hf d' (List.mem_cons_of_mem d hd'))
      (by rw [(hb d List.mem_cons_self).before_past hc']; rfl) (Cursor.rest_past hc') hs', hx,
      List.append_assoc, List.map_cons, List.singleton_append]

/-- The matches in a text made of blocks read as the blocks do, in order and with nothing else. -/
theorem filterMap_allMatches_flatMap {r : Regex} (hb : ∀ d ∈ ds, IsBlock (block d))
    (hend : ∀ c, c.rest = [] → r.preferred? c = none)
    (hf : ∀ d ∈ ds, ∀ c t, Look.isWord true c.before = false → Opens t →
      c.rest = block d ++ t → Finds r.preferred? read c (reading d) (c.past (block d))) :
    (r.allMatches (ds.flatMap block)).filterMap read = ds.map reading := by
  rw [allMatches_eq, matchesBy, Cursor.places_eq,
    filterMap_foldl_visit hb hend hf (c := Cursor.start (ds.flatMap block)) rfl rfl (Nat.le_refl _)]
  rfl

end Blocks

end CodeOutline.Regex
