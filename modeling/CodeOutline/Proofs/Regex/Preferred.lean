import CodeOutline.Proofs.Regex.Survey

/-! # The preferred match

A walk along the marks of a survey takes no wrong turn: it ends in the first outcome that leads on.
So the matches of an expression are those that a search through all outcomes finds.
-/

namespace CodeOutline.Regex

variable {leads leads' : Cursor → Bool} {size : Nat} {c c₀ : Cursor} {chart : Chart}
  {marks : Column} {stays greedy : Bool} {r body : Regex} {ks : Captures}

theorem findSome?_eq_of_find? {α β : Type} {l : List α} {test : α → Bool} {look : α → Option β}
    {x : α} (ht : ∀ y ∈ l, test y = (look y).isSome) (h : l.find? test = some x) :
    l.findSome? look = look x := by
  induction l with
  | nil => simp at h
  | cons y l ih =>
    have hy := ht y List.mem_cons_self
    by_cases hs : test y = true
    · obtain rfl : y = x := by simpa [List.find?_cons, hs] using h
      obtain ⟨b, hb⟩ := Option.isSome_iff_exists.mp (hy.symm.trans hs)
      simp [hb]
    · have hn : look y = none := by simpa [hs] using hy.symm
      rw [List.findSome?_cons, hn]
      exact ih (fun z hz => ht z (List.mem_cons_of_mem y hz))
        (by simpa [List.find?_cons, hs] using h)

theorem isSome_find?_of_findSome? {α β : Type} {l : List α} {test : α → Bool}
    {look : α → Option β} (ht : ∀ y ∈ l, test y = (look y).isSome)
    (h : (l.findSome? look).isSome = true) : (l.find? test).isSome = true := by
  obtain ⟨y, hy, hs⟩ := List.findSome?_isSome_iff.mp h
  exact List.find?_isSome.mpr ⟨y, hy, (ht y hy).trans hs⟩

theorem findSome?_congr {α β : Type} {l : List α} {f g : α → Option β}
    (h : ∀ x ∈ l, f x = g x) : l.findSome? f = l.findSome? g := by
  induction l with
  | nil => rfl
  | cons x l ih =>
    rw [List.findSome?_cons, List.findSome?_cons, h x List.mem_cons_self,
      ih fun y hy => h y (List.mem_cons_of_mem x hy)]

theorem find?_congr {α : Type} {l : List α} {p q : α → Bool} (h : ∀ x ∈ l, p x = q x) :
    l.find? p = l.find? q := by
  induction l with
  | nil => rfl
  | cons x l ih =>
    rw [List.find?_cons, List.find?_cons, h x List.mem_cons_self,
      ih fun y hy => h y (List.mem_cons_of_mem x hy)]

theorem find?_endsAt_isSome (r : Regex) (leads : Cursor → Bool) (stays : Bool) (c : Cursor)
    (ks : Captures) :
    ((r.outcomes c ks).find? fun o => endsAt c leads stays o.1).isSome =
      (r.advances leads c || (r.nullable c && stays)) := by
  rw [Bool.eq_iff_iff, List.find?_isSome, Bool.or_eq_true, Bool.and_eq_true,
    ← exists_endsAt_iff ks stays]

theorem endsAt_of_onward {d e : Cursor} (hd : d ∈ c.onward) (he : e ∈ d.onward) :
    endsAt c leads stays e = endsAt d leads (endsAt c leads stays d) e := by
  have hcd := Cursor.offset_le_of_mem_onward hd
  have hde := Cursor.offset_le_of_mem_onward he
  by_cases h : e.offset = d.offset
  · rw [Cursor.eq_of_mem_onward he h]
    simp [endsAt]
  · have hne : e.offset ≠ c.offset := by omega
    simp [endsAt, h, hne]

theorem find?_outcomes_seq (first second : Regex) :
    ((seq first second).outcomes c ks).find? (fun o => endsAt c leads stays o.1) =
      (first.outcomes c ks).findSome? fun p =>
        (second.outcomes p.1 p.2).find? fun o =>
          endsAt p.1 leads (endsAt c leads stays p.1) o.1 := by
  rw [outcomes, List.find?_flatMap]
  refine findSome?_congr fun p hp => ?_
  refine find?_congr fun o ho => ?_
  exact endsAt_of_onward (outcomes_forward first c ks p hp) (outcomes_forward second p.1 p.2 o ho)

/-- The first part of a match ends where the second part can go on from. -/
theorem endsAt_seq_eq (first second : Regex) (leads : Cursor → Bool) (stays : Bool) (c : Cursor)
    (ks : Captures) : ∀ p ∈ first.outcomes c ks,
    endsAt c (fun d => second.advances leads d || (second.nullable d && leads d))
        (second.advances leads c || (second.nullable c && stays)) p.1 =
      ((second.outcomes p.1 p.2).find? fun o =>
        endsAt p.1 leads (endsAt c leads stays p.1) o.1).isSome := by
  intro p hp
  rw [find?_endsAt_isSome]
  by_cases he : p.1.offset = c.offset
  · simp [endsAt, Cursor.eq_of_mem_onward (outcomes_forward first c ks p hp) he]
  · simp [endsAt, he]

/-- A round ends where the loop can end or go on. -/
theorem endsAt_round_eq (greedy : Bool) (body : Regex) (leads : Cursor → Bool) (stays : Bool)
    (c : Cursor) (p : Cursor × Captures) :
    endsAt c (fun d => leads d || (plus greedy body).advances leads d) stays p.1 =
      (if p.1.offset = c.offset then (if stays then some p else none)
        else (laterRounds greedy body.outcomes p.1 p.2).find? fun o => leads o.1).isSome := by
  by_cases he : p.1.offset = c.offset
  · cases stays <;> simp [endsAt, he]
  · rw [Bool.eq_iff_iff, if_neg he, List.find?_isSome, exists_laterRounds_iff]
    simp [endsAt, he]

/-- One more round is made exactly where the loop advances, and goes on from its first end. -/
theorem find?_flatMap_laterRounds {q : Cursor × Captures}
    (h : (plus greedy body).advances leads c = true →
      (body.outcomes c ks).find? (fun o =>
        endsAt c (fun e => leads e || (plus greedy body).advances leads e) false o.1) = some q) :
    ((body.outcomes c ks).flatMap fun p =>
        if p.1.offset = c.offset then [] else laterRounds greedy body.outcomes p.1 p.2).find?
      (fun o => leads o.1) =
      if (plus greedy body).advances leads c = true then
        (laterRounds greedy body.outcomes q.1 q.2).find? fun o => leads o.1
      else none := by
  rw [List.find?_flatMap]
  have hlook : ∀ p ∈ body.outcomes c ks,
      endsAt c (fun e => leads e || (plus greedy body).advances leads e) false p.1 =
        ((if p.1.offset = c.offset then []
          else laterRounds greedy body.outcomes p.1 p.2).find? fun o => leads o.1).isSome := by
    intro p _
    rw [endsAt_round_eq]
    split <;> rfl
  split
  · rename_i ha
    have hend := List.find?_some (h ha)
    have hne : q.1.offset ≠ c.offset := by
      intro he
      simp [endsAt, he] at hend
    rw [findSome?_eq_of_find? hlook (h ha), if_neg hne]
  · rename_i ha
    rw [List.findSome?_eq_none_iff]
    intro p hp
    rw [← Option.not_isSome_iff_eq_none, ← hlook p hp]
    intro hend
    apply ha
    rw [advances_plus, advances_iff ks]
    by_cases he : p.1.offset = c.offset
    · simp [endsAt, he] at hend
    · exact ⟨p, hp, he, by simpa [endsAt, he] using hend⟩

/-- Further rounds along the marks end in the first place that leads on, when each round does. -/
theorem walkRounds_eq {step : Cursor → Captures → Cursor × Captures}
    (hm : ∀ d ∈ c₀.onward, marks.get size d.offset = (plus greedy body).advances leads d)
    (hl : ∀ d ∈ c₀.onward, leads' d = leads d)
    (hs : ∀ d ∈ c₀.onward, ∀ ks, (plus greedy body).advances leads d = true →
      (body.outcomes d ks).find? (fun o =>
          endsAt d (fun e => leads e || (plus greedy body).advances leads e) false o.1) =
        some (step d ks))
    {fuel : Nat} (hf : c.rest.length ≤ fuel) (hc : c ∈ c₀.onward)
    (h : leads c = true ∨ (plus greedy body).advances leads c = true) :
    (laterRounds greedy body.outcomes c ks).find? (fun o => leads o.1) =
      some (walkRounds greedy size marks leads' step fuel c ks) := by
  induction fuel generalizing c ks with
  | zero =>
    have hr : c.rest = [] := List.eq_nil_of_length_eq_zero (by omega)
    have ha : (plus greedy body).advances leads c = false := by
      rw [Bool.eq_false_iff, ne_eq, advances_iff []]
      rintro ⟨o, ho, hne, _⟩
      have := outcomes_forward _ c [] o ho
      rw [Cursor.onward_of_nil hr, List.mem_singleton] at this
      exact hne (by rw [this])
    simp only [ha, Bool.false_eq_true, or_false] at h
    simp [laterRounds, hr, furtherRounds, walkRounds, h]
  | succ fuel ih =>
    have hagain : ((body.outcomes c ks).flatMap fun p =>
        if p.1.offset = c.offset then [] else laterRounds greedy body.outcomes p.1 p.2).find?
          (fun o => leads o.1) =
        if (plus greedy body).advances leads c = true then
          some (walkRounds greedy size marks leads' step fuel (step c ks).1 (step c ks).2)
        else none := by
      rw [find?_flatMap_laterRounds (hs c hc ks)]
      split
      · -- The round has read something, so the induction goes on from its end.
        rename_i ha
        have hend := List.find?_some (hs c hc ks ha)
        have hon := outcomes_forward body c ks _ (List.mem_of_find?_eq_some (hs c hc ks ha))
        have hne : (step c ks).1.offset ≠ c.offset := by
          intro he
          simp [endsAt, he] at hend
        have hlt := Cursor.length_rest_lt hon hne
        exact ih (by omega) (Cursor.mem_onward_trans hc hon)
          (by simpa [endsAt, hne] using hend)
      · rfl
    rw [laterRounds_eq (outcomes_forward body), walkRounds, hm c hc, hl c hc]
    cases greedy with
    | true =>
      simp only [if_true, List.find?_append, hagain]
      by_cases ha : (plus true body).advances leads c = true
      · simp [ha]
      · have hlc : leads c = true := h.resolve_right ha
        simp [ha, hlc]
    | false =>
      simp only [Bool.false_eq_true, if_false, List.find?_cons, hagain]
      by_cases hlc : leads c = true
      · simp [hlc]
      · have ha : (plus false body).advances leads c = true := h.resolve_left hlc
        simp [ha, hlc]

theorem find?_outcomes_plus (greedy : Bool) (body : Regex) :
    ((plus greedy body).outcomes c ks).find? (fun o => endsAt c leads stays o.1) =
      (body.outcomes c ks).findSome? fun p =>
        if p.1.offset = c.offset then (if stays then some p else none)
        else (laterRounds greedy body.outcomes p.1 p.2).find? fun o => leads o.1 := by
  rw [outcomes_plus, List.find?_flatMap]
  refine findSome?_congr fun p hp => ?_
  by_cases he : p.1.offset = c.offset
  · cases stays <;> simp [he, endsAt]
  · simp only [if_neg he]
    refine find?_congr fun o ho => ?_
    have hp' := Cursor.offset_le_of_mem_onward (outcomes_forward body c ks p hp)
    have ho' := Cursor.offset_le_of_mem_onward
      (mem_onward_of_mem_furtherRounds (outcomes_forward body) ho)
    have hne : o.1.offset ≠ c.offset := by omega
    simp [endsAt, hne]

theorem walk_eq (hf : chart.Fits c₀.onward r leads) (hn : size = c₀.offset + c₀.rest.length)
    (hl : ∀ d ∈ c₀.onward, leads' d = leads d) (hc : c ∈ c₀.onward)
    (h : ((r.outcomes c ks).find? fun o => endsAt c leads stays o.1).isSome = true) :
    (r.outcomes c ks).find? (fun o => endsAt c leads stays o.1) =
      some (r.walk size chart leads' stays c ks) := by
  induction r generalizing chart leads leads' c ks stays with
  | empty => cases chart <;> simpa [outcomes, walk, Chart.Fits] using h
  | look l =>
    by_cases hh : l.holds c.before c.rest.head? = true
    · cases chart <;> simpa [outcomes, walk, hh] using h
    · simp [outcomes, hh] at h
  | set chars =>
    cases hr : c.rest with
    | nil => simp [outcomes, hr] at h
    | cons x u =>
      by_cases hx : chars.contains x = true
      · cases chart <;> simpa [outcomes, walk, hr, hx] using h
      · simp [outcomes, hr, hx] at h
  | group name body ih =>
    cases chart with
    | group chart =>
      rw [outcomes, List.find?_map, Function.comp_def] at h ⊢
      rw [ih hf hl hc (by simpa using h)]
      rfl
    | leaf | char | seq | alt | plus => exact hf.elim
  | seq first second ih₁ ih₂ =>
    cases chart with
    | seq marks chart₁ chart₂ =>
      obtain ⟨hm, hf₁, hf₂⟩ := hf
      have htest := endsAt_seq_eq first second leads stays c ks
      rw [find?_outcomes_seq] at h ⊢
      have hs₁ := isSome_find?_of_findSome? htest h
      have hl₁ : ∀ d ∈ c₀.onward, (marks.get size d.offset || (second.nullable d && leads' d)) =
          (second.advances leads d || (second.nullable d && leads d)) :=
        fun d hd => by rw [hm.get_eq hn hd, hl d hd]
      have hw₁ := ih₁ hf₁ hl₁ hc hs₁
      have hmem := List.mem_of_find?_eq_some hw₁
      have hend := List.find?_some hw₁
      have hon := Cursor.mem_onward_trans hc (outcomes_forward first c ks _ hmem)
      rw [findSome?_eq_of_find? htest hw₁,
        ih₂ hf₂ hl hon ((htest _ hmem).symm.trans hend), walk, hm.get_eq hn hc]
      simp only [endsAt, hl _ hon]
    | leaf | char | group | alt | plus => exact hf.elim
  | alt first second ih₁ ih₂ =>
    cases chart with
    | alt marks chart₁ chart₂ =>
      obtain ⟨hm, hf₁, hf₂⟩ := hf
      rw [outcomes, List.find?_append] at h ⊢
      rw [walk, hm.get_eq hn hc, ← find?_endsAt_isSome first leads stays c ks]
      cases h₁ : (first.outcomes c ks).find? fun o => endsAt c leads stays o.1 with
      | some w => rw [← h₁, ih₁ hf₁ hl hc (by rw [h₁]; rfl)]; rfl
      | none => rw [h₁, Option.none_or] at h; exact ih₂ hf₂ hl hc h
    | leaf | char | group | seq | plus => exact hf.elim
  | plus greedy body ih =>
    cases chart with
    | plus marks chart =>
      obtain ⟨hm, hb⟩ := hf
      have hmore : ∀ d ∈ c₀.onward, (leads' d || marks.get size d.offset) =
          (leads d || (plus greedy body).advances leads d) :=
        fun d hd => by rw [hl d hd, hm.get_eq hn hd]
      have htest := fun p (_ : p ∈ body.outcomes c ks) =>
        endsAt_round_eq greedy body leads stays c p
      rw [find?_outcomes_plus] at h ⊢
      have hs := isSome_find?_of_findSome? htest h
      have hw := ih hb hmore hc hs
      have hmem := List.mem_of_find?_eq_some hw
      have hend := List.find?_some hw
      have hon := Cursor.mem_onward_trans hc (outcomes_forward body c ks _ hmem)
      have hsize := Cursor.offset_add_length_of_mem_onward hon
      rw [findSome?_eq_of_find? htest hw, walk]
      by_cases he : (body.walk size chart (fun d => leads' d || marks.get size d.offset) stays
          c ks).1.offset = c.offset
      · have hst : stays = true := by simpa [endsAt, he] using hend
        simp only [if_pos he, if_pos hst]
      · simp only [if_neg he]
        refine walkRounds_eq (fun d hd => hm.get_eq hn hd) hl (fun d hd ks ha => ?_) (by omega) hon
          (by simpa [endsAt, he] using hend)
        refine ih hb hmore hd ?_
        rw [find?_endsAt_isSome, ← advances_plus, ha, Bool.true_or]
    | leaf | char | group | seq | alt => exact hf.elim

theorem attempt_eq (r : Regex) (text : List Char) (hc : c ∈ Cursor.places text) :
    (r.survey text).attempt r c = (r.outcomes c []).head? := by
  rw [Cursor.places_eq] at hc
  have hs : (r.survey text).Covers r text.length (Cursor.start text).onward := by
    rw [survey, Cursor.places_eq]
    exact survey_covers_onward r text.length (.start text)
  have hn : text.length = (Cursor.start text).offset + (Cursor.start text).rest.length := by
    simp [Cursor.start]
  have hall : (fun o : Cursor × Captures => endsAt c (fun _ => true) true o.1) = fun _ => true := by
    funext o
    simp [endsAt]
  have hsome := find?_endsAt_isSome r (fun _ => true) true c []
  have hhead : (r.outcomes c []).head? =
      (r.outcomes c []).find? fun o => endsAt c (fun _ => true) true o.1 := by
    rw [hall]
    cases r.outcomes c [] <;> rfl
  rw [Survey.attempt, hs.size_eq, hs.marks.get_eq hn hc, hhead]
  split
  · rename_i h
    exact (walk_eq hs.chart hn (fun _ _ => rfl) hc (hsome.trans (by simpa using h))).symm
  · rename_i h
    have hnone : ((r.outcomes c []).find? fun o =>
        endsAt c (fun _ => true) true o.1).isSome = false :=
      hsome.trans (by simpa using h)
    exact (Option.isNone_iff_eq_none.mp (Option.isSome_eq_false_iff.mp hnone)).symm

/-- The preferred match from a place, among all outcomes. -/
def preferred? (r : Regex) (c : Cursor) : Option (Cursor × Captures) :=
  (r.outcomes c []).head?

theorem foldl_visit_congr {attempt attempt' : Cursor → Option (Cursor × Captures)}
    {ps : List Cursor} (h : ∀ c ∈ ps, attempt c = attempt' c) (s : Search) :
    ps.foldl (Search.visit attempt) s = ps.foldl (Search.visit attempt') s := by
  induction ps generalizing s with
  | nil => rfl
  | cons c ps ih =>
    have hv : Search.visit attempt s c = Search.visit attempt' s c := by
      rw [Search.visit, Search.visit, h c List.mem_cons_self]
    rw [List.foldl_cons, List.foldl_cons, hv, ih fun d hd => h d (List.mem_cons_of_mem c hd)]

/-- The matches in a text are those of a search for preferred matches. -/
theorem allMatches_eq (r : Regex) (text : List Char) :
    r.allMatches text = matchesBy r.preferred? text := by
  have h : ∀ c ∈ Cursor.places text, (r.survey text).attempt r c = r.preferred? c :=
    fun c hc => attempt_eq r text hc
  rw [allMatches, matchesBy, matchesBy, foldl_visit_congr h]

end CodeOutline.Regex
