import CodeOutline.Proofs.Regex.Matches
import CodeOutline.Proofs.Text.LineEnd

/-! # Matching with longer line ends

An expression is matched in a text and in the same text with a carriage return before each line
feed. The places of the two texts correspond, but the longer text has one more place inside of each
line end. What is known of what follows an expression tells which of these places can be taken for
which, and for each kind of expression what is then known of it.
-/

namespace CodeOutline.Regex

open Text (crlfChars)

/-- The characters of line ends. -/
def lineEnds : List Char := ['\r', '\n']

/-! ## Places -/

/-- A place, and the same place in the longer text. -/
structure Whole (c c' : Cursor) : Prop where
  before : c'.before = c.before
  rest : c'.rest = crlfChars c.rest

/-- A place before a line end, and the place inside of the longer one. -/
def Half (c c' : Cursor) : Prop :=
  ∃ u, c.rest = '\n' :: u ∧ c'.rest = '\n' :: crlfChars u

/-- A place after a line end, and the place inside of the longer one. -/
structure Passed (c c' : Cursor) : Prop where
  before : c.before = some '\n'
  rest : c'.rest = '\n' :: crlfChars c.rest

/-- Paired places onward from two places. -/
structure From (P : Cursor → Cursor → Prop) (b b' c c' : Cursor) : Prop where
  pair : P c c'
  onward : c ∈ b.onward
  onward' : c' ∈ b'.onward

variable {P : Cursor → Cursor → Prop} {a a' b b' c c' d d' : Cursor} {x : Char} {u : List Char}

theorem From.self (h : P c c') : From P c c' c c' :=
  ⟨h, c.self_mem_onward, c'.self_mem_onward⟩

theorem From.trans (h : From P b b' c c') (hb : b ∈ a.onward) (hb' : b' ∈ a'.onward) :
    From P a a' c c' :=
  ⟨h.pair, Cursor.mem_onward_trans hb h.onward, Cursor.mem_onward_trans hb' h.onward'⟩

theorem next_mem_onward_of (h : c ∈ b.onward) (hc : c.rest = x :: u) : c.next ∈ b.onward :=
  Cursor.mem_onward_trans h (Cursor.next_mem_onward hc)

theorem From.half_next (h : From Half b b' c c') : ∃ u, c.rest = '\n' :: u ∧
    c'.rest = '\n' :: crlfChars u ∧ From Whole b b' c.next c'.next := by
  obtain ⟨⟨u, hu, hu'⟩, hon, hon'⟩ := h
  refine ⟨u, hu, hu', ⟨?_, ?_⟩, next_mem_onward_of hon hu, next_mem_onward_of hon' hu'⟩
  · rw [Cursor.next_eq hu, Cursor.next_eq hu']
  · rw [Cursor.rest_next hu, Cursor.rest_next hu']

theorem From.passed_next (h : From Passed b b' c c') : From Whole b b' c c'.next := by
  obtain ⟨⟨hb, hr⟩, hon, hon'⟩ := h
  refine ⟨⟨?_, Cursor.rest_next hr⟩, hon, next_mem_onward_of hon' hr⟩
  rw [Cursor.next_eq hr, hb]

/-- The text ends, or a character is read in both texts, or a line end is read, in the longer text
over the place inside of it. -/
theorem From.whole_cases (h : From Whole b b' c c') : (c.rest = [] ∧ c'.rest = []) ∨
    (∃ x u, x ≠ '\n' ∧ c.rest = x :: u ∧ c'.rest = x :: crlfChars u ∧
      From Whole b b' c.next c'.next) ∨
    ∃ u, c.rest = '\n' :: u ∧ c'.rest = '\r' :: '\n' :: crlfChars u ∧
      From Half b b' c c'.next ∧ From Passed b b' c.next c'.next ∧
        From Whole b b' c.next c'.next.next := by
  obtain ⟨⟨hb, hr⟩, hon, hon'⟩ := h
  cases hc : c.rest with
  | nil =>
    rw [hc] at hr
    exact Or.inl ⟨rfl, hr⟩
  | cons x u =>
    rw [hc] at hr
    apply Or.inr
    by_cases hx : x = '\n'
    · subst hx
      rw [Text.crlfChars_lineFeed] at hr
      have hon'' := next_mem_onward_of hon' hr
      have hhalf : From Half b b' c c'.next := ⟨⟨u, hc, Cursor.rest_next hr⟩, hon, hon''⟩
      have hnext := next_mem_onward_of hon hc
      obtain ⟨_, _, _, hwhole⟩ := hhalf.half_next
      refine Or.inr ⟨u, rfl, hr, hhalf, ⟨⟨?_, ?_⟩, hnext, hon''⟩, hwhole⟩
      · rw [Cursor.next_eq hc]
      · rw [Cursor.rest_next hr, Cursor.rest_next hc]
    · rw [Text.crlfChars_cons hx] at hr
      refine Or.inl ⟨x, u, hx, rfl, hr, ⟨?_, ?_⟩, next_mem_onward_of hon hc,
        next_mem_onward_of hon' hr⟩
      · rw [Cursor.next_eq hc, Cursor.next_eq hr]
      · rw [Cursor.rest_next hr, Cursor.rest_next hc]

theorem isWord_lineEnd (hx : x ∈ lineEnds) : Look.isWord true (some x) = false := by
  simp only [lineEnds, List.mem_cons, List.not_mem_nil, or_false] at hx
  rcases hx with rfl | rfl <;> rfl

theorem inStep_whole (b b' : Cursor) : InStep lineEnds (From Whole b b') where
  head := by
    intro c c' hc x hx
    rcases hc.whole_cases with ⟨hr, hr'⟩ | ⟨y, u, _, hr, hr', _⟩ | ⟨u, hr, hr', _⟩
    · rw [hr, hr']
    · rw [hr, hr', List.head?_cons, List.head?_cons]
    · rw [hr, hr', List.head?_cons, List.head?_cons, Option.some.injEq, Option.some.injEq]
      constructor <;>
      · rintro rfl
        exact absurd (by decide) hx
  next := by
    intro c c' hc x hx hhead
    rcases hc.whole_cases with ⟨hr, _⟩ | ⟨_, _, _, _, _, hnext⟩ | ⟨u, hr, _⟩
    · rw [hr] at hhead
      cases hhead
    · exact hnext
    · rw [hr] at hhead
      cases hhead
      exact absurd (by decide) hx
  edge := by
    intro c c' hc
    rw [Look.holds, Look.holds, hc.pair.before]
    rcases hc.whole_cases with ⟨hr, hr'⟩ | ⟨y, u, _, hr, hr', _⟩ | ⟨u, hr, hr', _⟩
    · rw [hr, hr']
    · rw [hr, hr', List.head?_cons, List.head?_cons]
    · rw [hr, hr', List.head?_cons, List.head?_cons, isWord_lineEnd (x := '\n') (by decide),
        isWord_lineEnd (x := '\r') (by decide)]

/-! ## Captures -/

/-- The same captured text; under some names, a text with the same words. -/
def Blended (loose : List String) (κ κ' : Capture) : Prop :=
  κ.name = κ'.name ∧
    (κ.text = κ'.text ∨ (κ.name ∈ loose ∧ Text.words κ.text = Text.words κ'.text))

/-- Only blanks are between a place and another one. -/
def Near (c c' : Cursor) : Prop :=
  (∃ z, Text.Blank z ∧ c'.rest = z ++ crlfChars c.rest) ∨
    ∃ z, Text.Blank z ∧ crlfChars c.rest = z ++ c'.rest

theorem Whole.near (h : Whole c c') : Near c c' :=
  Or.inl ⟨[], by simp [Text.Blank], h.rest⟩

theorem Half.near (h : Half c c') : Near c c' := by
  obtain ⟨u, hu, hu'⟩ := h
  refine Or.inr ⟨['\r'], List.forall_mem_singleton.mpr rfl, ?_⟩
  rw [hu, hu', Text.crlfChars_lineFeed, List.singleton_append]

theorem Passed.near (h : Passed c c') : Near c c' :=
  Or.inl ⟨['\n'], List.forall_mem_singleton.mpr rfl, h.rest⟩

theorem words_text_eq (hc : Near c c') (hd : Near d d') (h : d ∈ c.onward) (h' : d' ∈ c'.onward)
    (name : String) : Text.words (⟨name, c, d.offset⟩ : Capture).text =
      Text.words (⟨name, c', d'.offset⟩ : Capture).text := by
  obtain ⟨w, v, hw, rfl⟩ := Cursor.mem_onward.mp h
  obtain ⟨w', v', hw', rfl⟩ := Cursor.mem_onward.mp h'
  have hr := Cursor.rest_past hw
  have hr' := Cursor.rest_past hw'
  rw [text_past (hr.symm ▸ hw) rfl, text_past (hr'.symm ▸ hw') rfl, ← Text.words_crlfChars w]
  rw [Near, hr, hr'] at hd
  rw [Near, hw, hw', Text.crlfChars_append] at hc
  rcases hc with ⟨p, hp, hc⟩ | ⟨p, hp, hc⟩ <;> rcases hd with ⟨q, hq, hd⟩ | ⟨q, hq, hd⟩
  · have he : w' ++ q = p ++ crlfChars w := by
      refine (List.append_left_inj (crlfChars v)).mp ?_
      rw [List.append_assoc, ← hd, hc, List.append_assoc]
    rw [← Text.words_append_blank hq w', he, Text.words_blank_append hp]
  · have he : w' = p ++ (crlfChars w ++ q) := by
      refine (List.append_left_inj v').mp ?_
      rw [hc, hd]
      simp only [List.append_assoc]
    rw [he, Text.words_pad hp hq]
  · have he : crlfChars w = p ++ (w' ++ q) := by
      refine (List.append_left_inj (crlfChars v)).mp ?_
      rw [hc, hd]
      simp only [List.append_assoc]
    rw [he, Text.words_pad hp hq]
  · have he : crlfChars w ++ q = p ++ w' := by
      refine (List.append_left_inj v').mp ?_
      rw [List.append_assoc, ← hd, hc, List.append_assoc]
    rw [← Text.words_append_blank hq (crlfChars w), he, Text.words_blank_append hp]

/-! ## What is known of what follows -/

/-- What follows takes no character of a line end first. -/
def Stops (k : Follow) : Prop :=
  ∀ c ks, ∀ x ∈ lineEnds, c.rest.head? = some x → k c ks = none

/-- What is known of what follows, besides that it agrees at the same places. -/
structure Mode where
  stops : Bool
  /-- It agrees before a line end and inside of the longer one. -/
  half : Bool
  /-- It agrees after a line end and inside of the longer one. -/
  passed : Bool
  deriving DecidableEq, Repr

/-- Nothing more is known. -/
def Mode.plain : Mode := ⟨false, false, false⟩

/-- What is known of both of two ways to go on. -/
def Mode.inf (m n : Mode) : Mode :=
  ⟨m.stops && n.stops, m.half && n.half, m.passed && n.passed⟩

/-- Two ways to go on are as a mode says. -/
structure Meets (S : Capture → Capture → Prop) (E : Cursor × Captures → Cursor × Captures → Prop)
    (b b' : Cursor) (m : Mode) (k k' : Follow) : Prop where
  whole : Agree S E (From Whole b b') k k'
  stops : m.stops = true → Stops k ∧ Stops k'
  half : m.half = true → Agree S E (From Half b b') k k'
  passed : m.passed = true → Agree S E (From Passed b b') k k'

variable {S : Capture → Capture → Prop} {E : Cursor × Captures → Cursor × Captures → Prop}
  {k k' j j' : Follow} {m n : Mode} {r : Regex} {s : CharSet} {greedy : Bool}
  {loose : List String} {ks : Captures}

theorem Stops.agree_half (hk : Stops k) (hk' : Stops k') : Agree S E (From Half b b') k k' := by
  rintro c c' ks ks' ⟨⟨u, hu, hu'⟩, _⟩ _
  rw [hk c ks '\n' (by decide) (by rw [hu]; rfl), hk' c' ks' '\n' (by decide) (by rw [hu']; rfl)]
  exact .none

theorem Stops.prefer (hk : Stops k) (hj : Stops j) (greedy : Bool) :
    Stops fun c ks => prefer greedy (k c ks) (j c ks) := by
  intro c ks x hx hc
  simp only [hk c ks x hx hc, hj c ks x hx hc]
  cases greedy <;> rfl

theorem Meets.plain (h : Meets S E b b' m k k') : Meets S E b b' .plain k k' :=
  ⟨h.whole, nofun, nofun, nofun⟩

theorem Meets.prefer (hk : Meets S E b b' m k k') (hj : Meets S E b b' n j j') (greedy : Bool) :
    Meets S E b b' (m.inf n) (fun c ks => prefer greedy (k c ks) (j c ks))
      fun c ks => prefer greedy (k' c ks) (j' c ks) where
  whole c c' ks ks' hc hks := rel_prefer greedy (hk.whole c c' ks ks' hc hks)
    (hj.whole c c' ks ks' hc hks)
  stops h := by
    obtain ⟨hm, hn⟩ := (Bool.and_eq_true _ _).mp h
    exact ⟨(hk.stops hm).1.prefer (hj.stops hn).1 greedy,
      (hk.stops hm).2.prefer (hj.stops hn).2 greedy⟩
  half h c c' ks ks' hc hks := by
    obtain ⟨hm, hn⟩ := (Bool.and_eq_true _ _).mp h
    exact rel_prefer greedy (hk.half hm c c' ks ks' hc hks) (hj.half hn c c' ks ks' hc hks)
  passed h c c' ks ks' hc hks := by
    obtain ⟨hm, hn⟩ := (Bool.and_eq_true _ _).mp h
    exact rel_prefer greedy (hk.passed hm c c' ks ks' hc hks) (hj.passed hn c c' ks ks' hc hks)

theorem Meets.inf_right (h : Meets S E b b' n k k') : Meets S E b b' (m.inf n) k k' where
  whole := h.whole
  stops hs := h.stops ((Bool.and_eq_true _ _).mp hs).2
  half hs := h.half ((Bool.and_eq_true _ _).mp hs).2
  passed hs := h.passed ((Bool.and_eq_true _ _).mp hs).2

/-! ## Expressions without line ends -/

/-- A place before a character of a line end, and the same place at the end of a text. -/
def Cut (c c' : Cursor) : Prop :=
  c'.before = c.before ∧ c'.rest = [] ∧ ∃ x ∈ lineEnds, c.rest.head? = some x

theorem inStep_cut : InStep lineEnds Cut where
  head := by
    rintro c c' ⟨_, hr, x, hx, hc⟩ y hy
    rw [hr, hc, Option.some.injEq]
    constructor
    · rintro rfl
      exact absurd hx hy
    · nofun
  next := by
    rintro c c' ⟨_, _, x, hx, hc⟩ y hy hc'
    rw [hc] at hc'
    cases hc'
    exact absurd hx hy
  edge := by
    rintro c c' ⟨hb, hr, x, hx, hc⟩
    rw [Look.holds, Look.holds, hb, hr, hc, isWord_lineEnd hx]
    rfl

/-- Before a line end such an expression does as it does at the end of a text. -/
theorem rel_reach?_cut (hr : r.avoids lineEnds = true)
    (hk : Agree (fun _ _ => True) (fun _ _ => True) Cut k k') (hx : x ∈ lineEnds)
    (hc : c.rest.head? = some x) (ks : Captures) :
    Option.Rel (fun _ _ => True) (r.reach? k c ks) (r.reach? k' ⟨c.offset, c.before, []⟩ ks) :=
  agree_reach? (fun _ _ _ _ => trivial) hr inStep_cut hk c _ ks ks ⟨rfl, rfl, x, hx, hc⟩
    (List.forall₂_same.mpr fun _ _ => trivial)

theorem stops_of_consumes (hr : r.avoids lineEnds = true) (h : r.consumes = true) :
    Stops (r.reach? k) := by
  intro c ks x hx hc
  have hrel : Option.Rel (fun _ _ => True) (r.reach? accept c ks)
      (r.reach? accept ⟨c.offset, c.before, []⟩ ks) :=
    rel_reach?_cut hr (fun _ _ _ _ _ _ => .some trivial) hx hc ks
  have hnil : r.reach? accept ⟨c.offset, c.before, []⟩ ks = none := by
    rw [reach?, outcomes_eq_nil_of_consumes h rfl]
    rfl
  have hnone := eq_none_of_rel hrel hnil
  cases ho : r.outcomes c ks with
  | nil => rw [reach?, ho]; rfl
  | cons o os =>
    rw [reach?, ho, List.findSome?_cons, accept] at hnone
    cases hnone

theorem stops_of_stops (hr : r.avoids lineEnds = true) (h : Stops k) : Stops (r.reach? k) := by
  intro c ks x hx hc
  have hagree : Agree (fun _ _ => True) (fun _ _ => True) Cut k fun _ _ => none := by
    rintro d d' ks ks' ⟨_, _, y, hy, hd⟩ _
    rw [h d ks y hy hd]
    exact .none
  exact eq_none_of_rel (rel_reach?_cut hr hagree hx hc ks) (by simp [reach?])

/-- What is known of an expression without line ends and what follows it. -/
def Mode.flat (r : Regex) (m : Mode) : Mode :=
  ⟨r.consumes || m.stops, r.consumes || m.stops, false⟩

section Flat

variable (hS : ∀ κ κ' : Capture, κ.name = κ'.name → κ.text = κ'.text → S κ κ')
include hS

theorem meets_flat (hr : r.avoids lineEnds = true) (hk : Meets S E b b' m k k') :
    Meets S E b b' (.flat r m) (r.reach? k) (r.reach? k') := by
  have hstops : (r.consumes || m.stops) = true → Stops (r.reach? k) ∧ Stops (r.reach? k') := by
    intro h
    rcases (Bool.or_eq_true _ _).mp h with h | h
    · exact ⟨stops_of_consumes hr h, stops_of_consumes hr h⟩
    · exact ⟨stops_of_stops hr (hk.stops h).1, stops_of_stops hr (hk.stops h).2⟩
  refine ⟨agree_reach? hS hr (inStep_whole b b') hk.whole, hstops, fun h => ?_, nofun⟩
  exact (hstops h).1.agree_half (hstops h).2

end Flat

/-! ## Line ends -/

/-- The set has both characters of line ends. -/
def CharSet.hasLineEnds (s : CharSet) : Bool :=
  lineEnds.all s.contains

theorem CharSet.contains_of_hasLineEnds (h : s.hasLineEnds = true) (hx : x ∈ lineEnds) :
    s.contains x = true :=
  List.all_eq_true.mp h x hx

theorem meets_set (hs : s.hasLineEnds = true) (hm : m.passed = true)
    (hk : Meets S E b b' m k k') :
    Meets S E b b' ⟨false, true, false⟩ ((set s).reach? k) ((set s).reach? k') := by
  have hn := CharSet.contains_of_hasLineEnds hs (x := '\n') (by decide)
  have hr := CharSet.contains_of_hasLineEnds hs (x := '\r') (by decide)
  refine ⟨?_, nofun, fun _ => ?_, nofun⟩
  · intro c c' ks ks' hc hks
    rcases hc.whole_cases with ⟨h, h'⟩ | ⟨x, u, _, h, h', hnext⟩ | ⟨u, h, h', _, hpassed, _⟩
    · rw [reach?_set_of_nil h, reach?_set_of_nil h']
      exact .none
    · rw [reach?_set_of_cons h, reach?_set_of_cons h']
      split
      · exact hk.whole _ _ _ _ hnext hks
      · exact .none
    · rw [reach?_set_of_cons h, reach?_set_of_cons h', if_pos hn, if_pos hr]
      exact hk.passed hm _ _ _ _ hpassed hks
  · intro c c' ks ks' hc hks
    obtain ⟨u, h, h', hnext⟩ := hc.half_next
    rw [reach?_set_of_cons h, reach?_set_of_cons h', if_pos hn, if_pos hn]
    exact hk.whole _ _ _ _ hnext hks

/-- Any number of rounds of a set. -/
def rounds? (greedy : Bool) (s : CharSet) (k : Follow) : Follow :=
  if greedy then (star (.set s)).reach? k else (lazyStar (.set s)).reach? k

theorem rounds?_of_nil (h : c.rest = []) : rounds? greedy s k c ks = k c ks := by
  obtain ⟨o, b, t⟩ := c
  obtain rfl : t = [] := h
  cases greedy with
  | true => exact reach?_star_set_nil (s := s)
  | false => exact reach?_lazyStar_set_nil (s := s)

theorem rounds?_of_cons (h : c.rest = x :: u) : rounds? greedy s k c ks =
    if s.contains x then prefer greedy (rounds? greedy s k c.next ks) (k c ks) else k c ks := by
  obtain ⟨o, b, t⟩ := c
  obtain rfl : t = x :: u := h
  cases greedy with
  | true => exact reach?_star_set_cons (s := s)
  | false =>
    refine (reach?_lazyStar_set_cons (s := s)).trans ?_
    split
    · rfl
    · rw [Option.or_none]

theorem reach?_plus_set (greedy : Bool) (s : CharSet) (k : Follow) :
    (plus greedy (.set s)).reach? k = (set s).reach? (rounds? greedy s k) := by
  funext c ks
  obtain ⟨o, b, t⟩ := c
  cases t with
  | nil => rfl
  | cons x u =>
    rw [reach?_set_cons]
    cases greedy with
    | true => exact reach?_plus_set_cons
    | false => exact reach?_lazyPlus_set_cons

section Prefer

variable {α β : Type} {R : α → β → Prop} {p q : Option α} {p' q' q'' : Option β}

theorem prefer_none (greedy : Bool) (p : Option α) : prefer greedy p none = p := by
  cases greedy <;> simp [prefer]

theorem none_prefer (greedy : Bool) (p : Option α) : prefer greedy none p = p := by
  cases greedy <;> simp [prefer]

/-- A second chance for the same does not matter. -/
theorem rel_prefer_again (greedy : Bool) (hp : Option.Rel R p p') (hq : Option.Rel R q q')
    (hq' : Option.Rel R q q'') :
    Option.Rel R (prefer greedy p q) (prefer greedy (prefer greedy p' q') q'') := by
  cases greedy with
  | true =>
    cases hp with
    | some h => exact .some h
    | none =>
      cases hq with
      | some h => exact .some h
      | none => exact hq'
  | false =>
    cases hq' with
    | some h => exact .some h
    | none =>
      cases hq with
      | none => exact hp

theorem rel_prefer_same (greedy : Bool) (hp : Option.Rel R (prefer greedy p q) p')
    (hq : Option.Rel R q q') : Option.Rel R (prefer greedy p q) (prefer greedy p' q') := by
  cases greedy with
  | true =>
    cases p' with
    | some o => exact hp
    | none =>
      cases p with
      | some o => cases hp
      | none => exact hq
  | false =>
    cases hq with
    | some h => exact .some h
    | none => exact hp

end Prefer

/-- Rounds of a set with line ends can stop inside of a longer one, and start there. -/
theorem meets_rounds (greedy : Bool) (hs : s.hasLineEnds = true) (hm : m.half = true)
    (hk : Meets S E b b' m k k') :
    Meets S E b b' ⟨false, true, m.stops || m.passed⟩ (rounds? greedy s k)
      (rounds? greedy s k') := by
  have hn := CharSet.contains_of_hasLineEnds hs (x := '\n') (by decide)
  have hr := CharSet.contains_of_hasLineEnds hs (x := '\r') (by decide)
  have hwhole : Agree S E (From Whole b b') (rounds? greedy s k) (rounds? greedy s k') := by
    intro c c' ks ks' hc hks
    induction hlen : c.rest.length using Nat.strongRecOn generalizing c c' with
    | ind n ih =>
      rcases hc.whole_cases with ⟨h, h'⟩ | ⟨x, u, _, h, h', hnext⟩ | ⟨u, h, h', hhalf, _, hnext⟩
      · rw [rounds?_of_nil h, rounds?_of_nil h']
        exact hk.whole c c' ks ks' hc hks
      · rw [rounds?_of_cons h, rounds?_of_cons h']
        split
        · exact rel_prefer greedy (ih _ (hlen ▸ length_rest_next h) _ _ hnext rfl)
            (hk.whole c c' ks ks' hc hks)
        · exact hk.whole c c' ks ks' hc hks
      · have h'' := Cursor.rest_next h'
        rw [rounds?_of_cons h, rounds?_of_cons h', rounds?_of_cons h'', if_pos hn, if_pos hr,
          if_pos hn]
        exact rel_prefer_again greedy (ih _ (hlen ▸ length_rest_next h) _ _ hnext rfl)
          (hk.half hm _ _ _ _ hhalf hks) (hk.whole c c' ks ks' hc hks)
  refine ⟨hwhole, nofun, fun _ => ?_, fun h => ?_⟩
  · intro c c' ks ks' hc hks
    obtain ⟨u, h, h', hnext⟩ := hc.half_next
    rw [rounds?_of_cons h, rounds?_of_cons h', if_pos hn, if_pos hn]
    exact rel_prefer greedy (hwhole _ _ _ _ hnext hks) (hk.half hm c c' ks ks' hc hks)
  · intro c c' ks ks' hc hks
    have h' := hc.pair.rest
    have hrel := hwhole _ _ _ _ hc.passed_next hks
    rw [rounds?_of_cons h', if_pos hn]
    rcases (Bool.or_eq_true _ _).mp h with h | h
    · rw [(hk.stops h).2 c' ks' '\n' (by decide) (by rw [h']; rfl), prefer_none]
      exact hrel
    · have hlast := hk.passed h c c' ks ks' hc hks
      obtain ⟨p, hp⟩ : ∃ p, rounds? greedy s k c ks = prefer greedy p (k c ks) := by
        cases hc : c.rest with
        | nil => exact ⟨none, by rw [rounds?_of_nil hc, none_prefer]⟩
        | cons x u =>
          rw [rounds?_of_cons hc]
          split
          · exact ⟨_, rfl⟩
          · exact ⟨none, by rw [none_prefer]⟩
      rw [hp] at hrel ⊢
      exact rel_prefer_same greedy hrel hlast

theorem meets_plus_set (hs : s.hasLineEnds = true) (hm : m.half = true)
    (hm' : (m.stops || m.passed) = true) (hk : Meets S E b b' m k k') :
    Meets S E b b' ⟨false, true, false⟩ ((plus greedy (.set s)).reach? k)
      ((plus greedy (.set s)).reach? k') := by
  rw [reach?_plus_set, reach?_plus_set]
  exact meets_set (m := ⟨false, true, m.stops || m.passed⟩) hs hm' (meets_rounds _ hs hm hk)

/-! ## Groups and loops -/

theorem Stops.group (h : Stops k) (f : Cursor → Captures → Captures) :
    Stops fun d ks => k d (f d ks) :=
  fun d _ x hx hd => h d _ x hx hd

theorem Meets.capture {name : String} (hname : name ∈ loose)
    (hk : Meets (Blended loose) E b b' m k k') (hc : Near c c') (hon : c ∈ b.onward)
    (hon' : c' ∈ b'.onward) :
    Meets (Blended loose) E c c' m (fun d ks => k d (⟨name, c, d.offset⟩ :: ks))
      fun d ks => k' d (⟨name, c', d.offset⟩ :: ks) := by
  have hcapture : ∀ {P : Cursor → Cursor → Prop} {d d' : Cursor}, From P c c' d d' → Near d d' →
      Blended loose ⟨name, c, d.offset⟩ ⟨name, c', d'.offset⟩ := by
    intro P d d' h hd
    exact ⟨rfl, Or.inr ⟨hname, words_text_eq hc hd h.onward h.onward' name⟩⟩
  refine ⟨?_, fun h => ?_, fun h => ?_, fun h => ?_⟩
  · intro d d' ks ks' hd hks
    exact hk.whole d d' _ _ (hd.trans hon hon') (.cons (hcapture hd hd.pair.near) hks)
  · exact ⟨(hk.stops h).1.group _, (hk.stops h).2.group _⟩
  · intro d d' ks ks' hd hks
    exact hk.half h d d' _ _ (hd.trans hon hon') (.cons (hcapture hd hd.pair.near) hks)
  · intro d d' ks ks' hd hks
    exact hk.passed h d d' _ _ (hd.trans hon hon') (.cons (hcapture hd hd.pair.near) hks)

theorem meets_group {name : String} (hname : name ∈ loose)
    (hbody : ∀ b b' k k', Meets (Blended loose) E b b' m k k' →
      Meets (Blended loose) E b b' n (r.reach? k) (r.reach? k'))
    (hk : Meets (Blended loose) E b b' m k k') :
    Meets (Blended loose) E b b' ⟨false, n.half, false⟩ ((group name r).reach? k)
      ((group name r).reach? k') := by
  refine ⟨?_, nofun, fun h => ?_, nofun⟩
  · intro c c' ks ks' hc hks
    rw [reach?_group, reach?_group]
    have hin := hbody c c' _ _ (hk.capture hname hc.pair.near hc.onward hc.onward')
    exact hin.whole c c' ks ks' (From.self hc.pair) hks
  · intro c c' ks ks' hc hks
    rw [reach?_group, reach?_group]
    have hin := hbody c c' _ _ (hk.capture hname hc.pair.near hc.onward hc.onward')
    exact hin.half h c c' ks ks' (From.self hc.pair) hks

/-- After a round that always takes a character the loop is never at the place before. -/
theorem reach?_of_consumes (hr : r.consumes = true) (k j : Follow) :
    r.reach? (fun d ks => if d.offset = c.offset then k d ks else j d ks) c ks =
      r.reach? j c ks := by
  refine findSome?_congr fun o ho => ?_
  exact if_neg (offset_ne_of_consumes hr ho)

theorem meets_furtherReach? (hr : r.consumes = true)
    (hbody : ∀ k k', Meets S E b b' .plain k k' → Meets S E b b' n (r.reach? k) (r.reach? k'))
    (hk : Meets S E b b' m k k') (i : Nat) :
    Meets S E b b' (n.inf m) (furtherReach? greedy r k i) (furtherReach? greedy r k' i) := by
  induction i with
  | zero =>
    have hz : ∀ k, furtherReach? greedy r k 0 = k := by
      intro k
      funext c ks
      exact furtherReach?_zero
    rw [hz, hz]
    exact hk.inf_right
  | succ i ih =>
    have hsucc : ∀ k, furtherReach? greedy r k (i + 1) = fun c ks =>
        prefer greedy (r.reach? (furtherReach? greedy r k i) c ks) (k c ks) := by
      intro k
      funext c ks
      rw [furtherReach?_succ, reach?_of_consumes hr]
    rw [hsucc, hsucc]
    exact (hbody _ _ ih.plain).prefer hk greedy

theorem meets_rest (hi : ∀ i, Meets S E b b' m (furtherReach? greedy r k i)
      (furtherReach? greedy r k' i)) :
    Meets S E b b' m (fun d ks => furtherReach? greedy r k d.rest.length d ks)
      fun d ks => furtherReach? greedy r k' d.rest.length d ks := by
  have hagree : ∀ {P : Cursor → Cursor → Prop}, (∀ i, Agree S E P (furtherReach? greedy r k i)
      (furtherReach? greedy r k' i)) →
        Agree S E P (fun d ks => furtherReach? greedy r k d.rest.length d ks)
          fun d ks => furtherReach? greedy r k' d.rest.length d ks := by
    intro P h d d' ks ks' hd hks
    dsimp only
    rw [furtherReach?_fuel (Nat.le_refl _) (Nat.le_max_left d.rest.length d'.rest.length),
      furtherReach?_fuel (Nat.le_refl _) (Nat.le_max_right d.rest.length d'.rest.length)]
    exact h _ d d' ks ks' hd hks
  refine ⟨hagree fun i => (hi i).whole, fun h => ⟨?_, ?_⟩, fun h => hagree fun i => (hi i).half h,
    fun h => hagree fun i => (hi i).passed h⟩
  · exact fun d ks x hx hd => ((hi d.rest.length).stops h).1 d ks x hx hd
  · exact fun d ks x hx hd => ((hi d.rest.length).stops h).2 d ks x hx hd

theorem reach?_plus_of_consumes (hr : r.consumes = true) : (plus greedy r).reach? k =
    r.reach? fun d ks => furtherReach? greedy r k d.rest.length d ks := by
  funext c ks
  rw [reach?_plus, reach?_of_consumes hr]

end CodeOutline.Regex
