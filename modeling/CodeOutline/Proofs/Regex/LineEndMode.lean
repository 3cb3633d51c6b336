import CodeOutline.Proofs.Regex.LineEnd

/-! # Analysis of line ends

An expression is analysed from its end to its start, with what is known of what follows. The
analysis refuses an expression that could tell a text from the same text with longer line ends.
Where it does not, the two texts are searched alike.
-/

namespace CodeOutline.Regex

open Text (crlfChars)

variable {S : Capture → Capture → Prop} {E : Cursor × Captures → Cursor × Captures → Prop}
  {k k' : Follow} {m n : Mode} {r : Regex} {s : CharSet} {loose : List String}
  {b b' c c' : Cursor}

/-! ## The analysis -/

/-- The set of a loop of any number of rounds. -/
def loopSet? : Regex → Regex → Option (Bool × CharSet)
  | .plus true (.set s), .empty => some (true, s)
  | .empty, .plus false (.set s) => some (false, s)
  | _, _ => none

def charSet? : Regex → Option CharSet
  | .set s => some s
  | _ => none

/-- What is known of an expression and what follows it, from what is known of what follows; none
if they may tell the two texts apart. -/
def mode? (loose : List String) : Regex → Mode → Option Mode
  | .empty, m => some m
  | .set s, m =>
    if (set s).avoids lineEnds then some (.flat (.set s) m)
    else if s.hasLineEnds && m.passed then some ⟨false, true, false⟩ else none
  | .look l, m => if (look l).avoids lineEnds then some (.flat (.look l) m) else none
  | .group name body, m =>
    if body.avoids lineEnds then some (.flat body m)
    else if loose.contains name then (body.mode? loose m).map fun n => ⟨false, n.half, false⟩
    else none
  | .seq first second, m => (second.mode? loose m).bind (first.mode? loose)
  | .alt first second, m =>
    match (loopSet? first second).filter (·.2.hasLineEnds) with
    | some _ => if m.half then some ⟨false, true, m.stops || m.passed⟩ else none
    | none => do return (← first.mode? loose m).inf (← second.mode? loose m)
  | .plus _ body, m =>
    if body.avoids lineEnds then some (.flat body m)
    else
      match body.charSet? with
      | some s =>
        if s.hasLineEnds && m.half && (m.stops || m.passed) then some ⟨false, true, false⟩
        else none
      | none =>
        if body.consumes then
          (body.mode? loose .plain).bind fun n => body.mode? loose (n.inf m)
        else none

theorem blended_of_eq (loose : List String) (κ κ' : Capture) (hn : κ.name = κ'.name)
    (ht : κ.text = κ'.text) : Blended loose κ κ' :=
  ⟨hn, Or.inl ht⟩

/-- What the analysis tells is true. -/
theorem meets_reach? (h : r.mode? loose m = some n) (hk : Meets (Blended loose) E b b' m k k') :
    Meets (Blended loose) E b b' n (r.reach? k) (r.reach? k') := by
  have hS := blended_of_eq loose
  induction r generalizing b b' m n k k' with
  | empty =>
    rw [mode?, Option.some.injEq] at h
    rw [reach?_empty, reach?_empty, ← h]
    exact hk
  | set s =>
    rw [mode?] at h
    split at h
    · rename_i hr
      cases h
      exact meets_flat hS hr hk
    · split at h
      · rename_i hs
        cases h
        rw [Bool.and_eq_true] at hs
        exact meets_set hs.1 hs.2 hk
      · cases h
  | look l =>
    rw [mode?] at h
    split at h
    · rename_i hr
      cases h
      exact meets_flat hS hr hk
    · cases h
  | group name body ih =>
    rw [mode?] at h
    split at h
    · rename_i hr
      cases h
      exact meets_flat (r := group name body) hS hr hk
    · split at h
      · rename_i hname
        obtain ⟨n, hn, rfl⟩ := Option.map_eq_some_iff.mp h
        exact meets_group (List.contains_iff_mem.mp hname) (fun b b' k k' => ih hn) hk
      · cases h
  | seq first second ih₁ ih₂ =>
    rw [mode?] at h
    obtain ⟨n', h₂, h₁⟩ := Option.bind_eq_some_iff.mp h
    rw [reach?_seq, reach?_seq]
    exact ih₁ h₁ (ih₂ h₂ hk)
  | alt first second ih₁ ih₂ =>
    rw [mode?] at h
    split at h
    · rename_i l hl
      obtain ⟨hl, hs⟩ := Option.filter_eq_some_iff.mp hl
      split at h
      · rename_i hm
        cases h
        unfold loopSet? at hl
        split at hl
        · cases hl
          exact meets_rounds true hs hm hk
        · cases hl
          exact meets_rounds false hs hm hk
        · cases hl
      · cases h
    · obtain ⟨n₁, h₁, h⟩ := Option.bind_eq_some_iff.mp h
      obtain ⟨n₂, h₂, h⟩ := Option.bind_eq_some_iff.mp h
      cases h
      have hboth := (ih₁ h₁ hk).prefer (ih₂ h₂ hk) true
      have ha : ∀ k, (alt first second).reach? k =
          fun c ks => prefer true (first.reach? k c ks) (second.reach? k c ks) := by
        intro k
        funext c ks
        exact reach?_alt first second
      rw [ha, ha]
      exact hboth
  | plus greedy body ih =>
    rw [mode?] at h
    split at h
    · rename_i hr
      cases h
      exact meets_flat (r := plus greedy body) hS hr hk
    · split at h
      · rename_i s hs
        split at h
        · rename_i hm
          cases h
          unfold charSet? at hs
          split at hs
          · cases hs
            rw [Bool.and_eq_true, Bool.and_eq_true] at hm
            exact meets_plus_set hm.1.1 hm.1.2 hm.2 hk
          · cases hs
        · cases h
      · split at h
        · rename_i hc
          obtain ⟨n', hn', h⟩ := Option.bind_eq_some_iff.mp h
          rw [reach?_plus_of_consumes hc, reach?_plus_of_consumes hc]
          exact ih h (meets_rest (meets_furtherReach? hc (fun k k' => ih hn') hk))
        · cases h

/-! ## Searches -/

/-- Where matches start: before a line end they start at most inside of the longer one. -/
structure Starts (S : Capture → Capture → Prop) (E : Cursor × Captures → Cursor × Captures → Prop)
    (k k' : Follow) : Prop where
  whole : ∀ c c', Whole c c' → c.rest.head? ≠ some '\n' → Option.Rel E (k c []) (k' c' [])
  half : ∀ c c', Half c c' → Option.Rel E (k c []) (k' c' [])
  refuses : ∀ c' u, c'.rest = '\r' :: '\n' :: u → k' c' [] = none

theorem starts_of_meets (h : ∀ b b', Meets S E b b' m k k') (hm : m.stops = true) :
    Starts S E k k' where
  whole c c' hc _ := (h c c').whole c c' [] [] (From.self hc) .nil
  half c c' hc := by
    have hs := (h c c').stops hm
    exact Stops.agree_half (S := S) hs.1 hs.2 c c' [] [] (From.self hc) .nil
  refuses c' u hu := ((h c' c').stops hm).2 c' [] '\r' (by decide) (by rw [hu]; rfl)

theorem Starts.alt {r' : Regex} (h : Starts S E (r.reach? k) (r.reach? k'))
    (h' : Starts S E (r'.reach? k) (r'.reach? k')) :
    Starts S E ((alt r r').reach? k) ((alt r r').reach? k') where
  whole c c' hc hn := by
    rw [reach?_alt, reach?_alt]
    exact rel_or (h.whole c c' hc hn) (h'.whole c c' hc hn)
  half c c' hc := by
    rw [reach?_alt, reach?_alt]
    exact rel_or (h.half c c' hc) (h'.half c c' hc)
  refuses c' u hu := by
    rw [reach?_alt, h.refuses c' u hu, h'.refuses c' u hu]
    rfl

theorem starts_set (hs : s.hasLineEnds = true) (h : ∀ b b', Meets S E b b' m k k')
    (hm : m.stops = true) : Starts S E ((set s).reach? k) ((set s).reach? k') where
  whole c c' hc hn := by
    rcases (From.self hc).whole_cases with ⟨hr, hr'⟩ | ⟨x, u, _, hr, hr', hnext⟩ | ⟨u, hr, _⟩
    · rw [reach?_set_of_nil hr, reach?_set_of_nil hr']
      exact .none
    · rw [reach?_set_of_cons hr, reach?_set_of_cons hr']
      split
      · exact (h c c').whole _ _ _ _ hnext .nil
      · exact .none
    · exact absurd (by rw [hr]; rfl) hn
  half c c' hc := by
    obtain ⟨u, hr, hr', hnext⟩ := (From.self hc).half_next
    have hn := CharSet.contains_of_hasLineEnds hs (x := '\n') (by decide)
    rw [reach?_set_of_cons hr, reach?_set_of_cons hr', if_pos hn, if_pos hn]
    exact (h c c').whole _ _ _ _ hnext .nil
  refuses c' u hu := by
    have hr := CharSet.contains_of_hasLineEnds hs (x := '\r') (by decide)
    rw [reach?_set_of_cons hu, if_pos hr]
    exact ((h c' c').stops hm).2 _ _ '\n' (by decide) (by rw [Cursor.rest_next hu]; rfl)

theorem meets_accept (S : Capture → Capture → Prop) (b b' : Cursor) :
    Meets S (Ends S Whole) b b' .plain accept accept :=
  ⟨fun c c' ks ks' hc hks => agree_accept S Whole c c' ks ks' hc.pair hks, nofun, nofun, nofun⟩

/-- From the start on, the search in the longer text finds what the search in the text finds. -/
theorem searchInStep_of_starts (hr : r.consumes = true)
    (h : Starts S (Ends S Whole) (r.reach? accept) (r.reach? accept)) :
    SearchInStep r S Whole where
  consumes := hr
  step := by
    intro c c' x u hc hx
    simp only [preferred?_eq]
    rcases (From.self hc).whole_cases with ⟨hn, _⟩ | ⟨y, v, hy, hr, hr', hnext⟩ |
        ⟨v, hr, hr', hhalf, _, hnext⟩
    · rw [hx] at hn
      cases hn
    · refine ⟨[], c'.rest, rfl, by simp [Cursor.along], h.whole c c' hc ?_, ?_, hnext.pair⟩
      · rw [hr, List.head?_cons, ne_eq, Option.some.injEq]
        exact hy
      · rw [hr']
        exact List.cons_ne_nil _ _
    · refine ⟨['\r'], '\n' :: crlfChars v, hr', ?_, h.half c c'.next hhalf.pair,
        List.cons_ne_nil _ _, hnext.pair⟩
      intro p hp
      obtain rfl : p = c' := by simpa [Cursor.along] using hp
      exact h.refuses p _ hr'

theorem searchInStep_of_mode? (hr : r.consumes = true) (h : r.mode? loose .plain = some m)
    (hm : m.stops = true) : SearchInStep r (Blended loose) Whole :=
  searchInStep_of_starts hr
    (starts_of_meets (fun b b' => meets_reach? h (meets_accept (Blended loose) b b')) hm)

end CodeOutline.Regex
