import Mathlib.Data.List.Forall2
import CodeOutline.Proofs.Regex.Reach

/-! # Matching in step

An expression is matched from two places, of one text or of two. As long as both places have the
same next character wherever one of them has one that the expression can take, the two matches go in
step: there is none from either place, or the same characters are read, and what is captured are the
same texts.
-/

namespace CodeOutline.Regex

/-- Of two results, the first one counts when it is there, for a greedy loop; else the second. -/
def prefer {α : Type} (greedy : Bool) (m m' : Option α) : Option α :=
  if greedy then m.or m' else m'.or m

section Rel

variable {α β : Type} {R : α → β → Prop} {m n : Option α} {m' n' : Option β}

theorem rel_cases (h : Option.Rel R m m') :
    (m = none ∧ m' = none) ∨ ∃ a b, m = some a ∧ m' = some b ∧ R a b := by
  cases h with
  | some h => exact Or.inr ⟨_, _, rfl, rfl, h⟩
  | none => exact Or.inl ⟨rfl, rfl⟩

theorem eq_none_of_rel (h : Option.Rel R m m') (hn : m' = none) : m = none := by
  subst hn
  cases h
  rfl

theorem eq_none_of_rel' (h : Option.Rel R m m') (hn : m = none) : m' = none := by
  subst hn
  cases h
  rfl

theorem rel_or (hm : Option.Rel R m m') (hn : Option.Rel R n n') :
    Option.Rel R (m.or n) (m'.or n') := by
  cases hm with
  | some h => exact .some h
  | none => exact hn

theorem rel_prefer (greedy : Bool) (hm : Option.Rel R m m') (hn : Option.Rel R n n') :
    Option.Rel R (prefer greedy m n) (prefer greedy m' n') := by
  cases greedy with
  | true => exact rel_or hm hn
  | false => exact rel_or hn hm

end Rel

/-! ## Loops -/

section Loops

variable {r : Regex} {k : Follow} {greedy : Bool} {c : Cursor} {ks : Captures} {x : Char}
  {u : List Char} {s : CharSet} {m n : Nat}

theorem reach?_set_of_nil (h : c.rest = []) : (set s).reach? k c ks = none := by
  obtain ⟨o, b, t⟩ := c
  obtain rfl : t = [] := h
  rfl

theorem reach?_set_of_cons (h : c.rest = x :: u) :
    (set s).reach? k c ks = if s.contains x then k c.next ks else none := by
  obtain ⟨o, b, t⟩ := c
  obtain rfl : t = x :: u := h
  exact reach?_set_cons

/-- What follows a number of further rounds of a loop. -/
def furtherReach? (greedy : Bool) (r : Regex) (k : Follow) (n : Nat) : Follow := fun c ks =>
  (furtherRounds greedy r.outcomes n c ks).findSome? fun o => k o.1 o.2

theorem furtherReach?_zero : furtherReach? greedy r k 0 c ks = k c ks := by
  cases h : k c ks <;> simp [furtherReach?, furtherRounds, h]

theorem furtherReach?_succ : furtherReach? greedy r k (n + 1) c ks =
    prefer greedy (r.reach? (fun d ks => if d.offset = c.offset then none
      else furtherReach? greedy r k n d ks) c ks) (k c ks) := by
  have ha : ((r.outcomes c ks).flatMap fun p => if p.1.offset = c.offset then []
      else furtherRounds greedy r.outcomes n p.1 p.2).findSome? (fun o => k o.1 o.2) =
      r.reach? (fun d ks => if d.offset = c.offset then none
        else furtherReach? greedy r k n d ks) c ks := by
    rw [findSome?_flatMap, reach?]
    congr 1
    funext p
    split <;> rfl
  rw [furtherReach?, furtherRounds, ← ha]
  cases greedy with
  | true =>
    rw [if_pos rfl, List.findSome?_append]
    cases h : k c ks <;> simp [prefer, h]
  | false =>
    rw [if_neg Bool.false_ne_true, List.findSome?_cons]
    cases h : k c ks <;> simp [prefer]

/-- There are no more rounds than characters. -/
theorem furtherReach?_fuel (hm : c.rest.length ≤ m) (hn : c.rest.length ≤ n) :
    furtherReach? greedy r k m c ks = furtherReach? greedy r k n c ks := by
  rw [furtherReach?, furtherReach?, furtherRounds_fuel (outcomes_forward r) hm hn]

theorem reach?_plus : (plus greedy r).reach? k c ks =
    r.reach? (fun d ks => if d.offset = c.offset then k d ks
      else furtherReach? greedy r k d.rest.length d ks) c ks := by
  rw [reach?, outcomes_plus, findSome?_flatMap, reach?]
  congr 1
  funext p
  split
  · cases h : k p.1 p.2 <;> simp [h]
  · rfl

end Loops

/-! ## Places in step -/

/-- From paired places and with related captures, two ways to go on come to nothing or to related
ends. -/
def Agree (S : Capture → Capture → Prop) (E : Cursor × Captures → Cursor × Captures → Prop)
    (P : Cursor → Cursor → Prop) (k k' : Follow) : Prop :=
  ∀ c c' ks ks', P c c' → List.Forall₂ S ks ks' → Option.Rel E (k c ks) (k' c' ks')

/-- The expression takes none of these characters, and looks for nothing but edges of words. -/
def avoids (xs : List Char) : Regex → Bool
  | .empty => true
  | .set s => xs.all fun x => !s.contains x
  | .look l => l == .wordEdge true
  | .group _ body => body.avoids xs
  | .seq first second => first.avoids xs && second.avoids xs
  | .alt first second => first.avoids xs && second.avoids xs
  | .plus _ body => body.avoids xs

/-- Paired places go on in the same way, as long as these characters are not taken. -/
structure InStep (xs : List Char) (P : Cursor → Cursor → Prop) : Prop where
  head : ∀ {c c'}, P c c' → ∀ x ∉ xs, c.rest.head? = some x ↔ c'.rest.head? = some x
  next : ∀ {c c'}, P c c' → ∀ x ∉ xs, c.rest.head? = some x → P c.next c'.next
  edge : ∀ {c c'}, P c c' → (Look.wordEdge true).holds c.before c.rest.head? =
    (Look.wordEdge true).holds c'.before c'.rest.head?

/-- Paired places to which the same text leads from two places. -/
def Along (P : Cursor → Cursor → Prop) (b b' c c' : Cursor) : Prop :=
  P c c' ∧ ∃ w, (b.rest = w ++ c.rest ∧ c = b.past w) ∧ b'.rest = w ++ c'.rest ∧ c' = b'.past w

variable {S : Capture → Capture → Prop} {E : Cursor × Captures → Cursor × Captures → Prop}
  {P : Cursor → Cursor → Prop} {xs : List Char} {b b' c c' d d' : Cursor} {k k' : Follow}
  {r : Regex} {s : CharSet} {greedy : Bool} {x : Char} {u : List Char}

theorem exists_eq_cons_of_head? (h : c.rest.head? = some x) : ∃ u, c.rest = x :: u := by
  obtain ⟨o, b, t⟩ := c
  cases t with
  | nil => cases h
  | cons y t =>
    cases h
    exact ⟨t, rfl⟩

theorem along_self (h : P c c') : Along P c c' c c' :=
  ⟨h, [], ⟨rfl, rfl⟩, rfl, rfl⟩

theorem Along.snoc {w : List Char} (hb : b.rest = w ++ c.rest ∧ c = b.past w)
    (hc : c.rest = x :: u) :
    b.rest = (w ++ [x]) ++ c.next.rest ∧ c.next = b.past (w ++ [x]) := by
  obtain ⟨hr, hp⟩ := hb
  constructor
  · rw [hr, hc, Cursor.rest_next hc, List.append_assoc, List.singleton_append]
  · rw [Cursor.past_append, ← hp]
    rfl

theorem InStep.along (h : InStep xs P) (b b' : Cursor) : InStep xs (Along P b b') where
  head hp := h.head hp.1
  next := by
    rintro c c' ⟨hp, w, hb, hb'⟩ x hx hc
    obtain ⟨u, hu⟩ := exists_eq_cons_of_head? hc
    obtain ⟨u', hu'⟩ := exists_eq_cons_of_head? ((h.head hp x hx).mp hc)
    exact ⟨h.next hp x hx hc, w ++ [x], Along.snoc hb hu, Along.snoc hb' hu'⟩
  edge hp := h.edge hp.1

theorem text_past {w : List Char} (hb : b.rest = w ++ c.rest) (hc : c = b.past w) (name : String) :
    (⟨name, b, c.offset⟩ : Capture).text = w := by
  have ho := Cursor.offset_past hb
  rw [Capture.text, Cursor.textTo, hc, ho, hb, Nat.add_sub_cancel_left, List.take_left]

theorem Along.text_eq (h : Along P b b' c c') (name : String) :
    (⟨name, b, c.offset⟩ : Capture).text = (⟨name, b', c'.offset⟩ : Capture).text := by
  obtain ⟨_, w, ⟨hr, hc⟩, hr', hc'⟩ := h
  rw [text_past hr hc, text_past hr' hc']

theorem Along.offset_eq_iff (h : Along P b b' c c') :
    c.offset = b.offset ↔ c'.offset = b'.offset := by
  obtain ⟨_, w, ⟨hr, hc⟩, hr', hc'⟩ := h
  rw [hc, hc', Cursor.offset_past hr, Cursor.offset_past hr']
  omega

theorem agree_set (hP : InStep xs P) (hs : (set s).avoids xs = true) (hk : Agree S E P k k') :
    Agree S E P ((set s).reach? k) ((set s).reach? k') := by
  have hn : ∀ x, s.contains x = true → x ∉ xs := by
    intro x hx hm
    have := List.all_eq_true.mp hs x hm
    rw [hx] at this
    cases this
  intro c c' ks ks' hc hks
  cases hr : c.rest with
  | nil =>
    cases hr' : c'.rest with
    | nil =>
      rw [reach?_set_of_nil hr, reach?_set_of_nil hr']
      exact .none
    | cons y v =>
      have hy : ¬ s.contains y = true := by
        intro hy
        have := (hP.head hc y (hn y hy)).mpr (by rw [hr']; rfl)
        rw [hr] at this
        cases this
      rw [reach?_set_of_nil hr, reach?_set_of_cons hr', if_neg hy]
      exact .none
  | cons x u =>
    rw [reach?_set_of_cons hr]
    split
    · rename_i hx
      have hhead : c.rest.head? = some x := by rw [hr]; rfl
      obtain ⟨u', hr'⟩ := exists_eq_cons_of_head? ((hP.head hc x (hn x hx)).mp hhead)
      rw [reach?_set_of_cons hr', if_pos hx]
      exact hk _ _ _ _ (hP.next hc x (hn x hx) hhead) hks
    · rename_i hx
      cases hr' : c'.rest with
      | nil =>
        rw [reach?_set_of_nil hr']
        exact .none
      | cons y v =>
        have hy : ¬ s.contains y = true := by
          intro hy
          have := (hP.head hc y (hn y hy)).mpr (by rw [hr']; rfl)
          rw [hr] at this
          cases this
          exact hx hy
        rw [reach?_set_of_cons hr', if_neg hy]
        exact .none

theorem agree_furtherReach? (hP : InStep xs P)
    (hr : ∀ P k k', InStep xs P → Agree S E P k k' → Agree S E P (r.reach? k) (r.reach? k'))
    (hk : Agree S E P k k') (n : Nat) :
    Agree S E P (furtherReach? greedy r k n) (furtherReach? greedy r k' n) := by
  induction n with
  | zero =>
    intro c c' ks ks' hc hks
    rw [furtherReach?_zero, furtherReach?_zero]
    exact hk c c' ks ks' hc hks
  | succ n ih =>
    intro c c' ks ks' hc hks
    rw [furtherReach?_succ, furtherReach?_succ]
    refine rel_prefer greedy ?_ (hk c c' ks ks' hc hks)
    refine hr (Along P c c') _ _ (hP.along c c') ?_ c c' ks ks' (along_self hc) hks
    intro d d' ks ks' hd hks
    simp only [hd.offset_eq_iff]
    split
    · exact .none
    · exact ih d d' ks ks' hd.1 hks

/-- An expression that takes no other characters goes in step when what follows does. -/
theorem agree_reach? (hS : ∀ κ κ' : Capture, κ.name = κ'.name → κ.text = κ'.text → S κ κ')
    (hr : r.avoids xs = true) (hP : InStep xs P) (hk : Agree S E P k k') :
    Agree S E P (r.reach? k) (r.reach? k') := by
  induction r generalizing P k k' with
  | empty => rwa [reach?_empty, reach?_empty]
  | set s => exact agree_set hP hr hk
  | look l =>
    obtain rfl : l = .wordEdge true := eq_of_beq hr
    intro c c' ks ks' hc hks
    rw [reach?_look, reach?_look, hP.edge hc]
    split
    · exact hk c c' ks ks' hc hks
    · exact .none
  | group name body ih =>
    intro c c' ks ks' hc hks
    rw [reach?_group, reach?_group]
    refine ih hr (hP.along c c') ?_ c c' ks ks' (along_self hc) hks
    intro d d' ks ks' hd hks
    exact hk d d' _ _ hd.1 (.cons (hS _ _ rfl (hd.text_eq name)) hks)
  | seq first second ih₁ ih₂ =>
    rw [avoids, Bool.and_eq_true] at hr
    rw [reach?_seq, reach?_seq]
    exact ih₁ hr.1 hP (ih₂ hr.2 hP hk)
  | alt first second ih₁ ih₂ =>
    rw [avoids, Bool.and_eq_true] at hr
    intro c c' ks ks' hc hks
    rw [reach?_alt, reach?_alt]
    exact rel_or (ih₁ hr.1 hP hk c c' ks ks' hc hks) (ih₂ hr.2 hP hk c c' ks ks' hc hks)
  | plus greedy body ih =>
    intro c c' ks ks' hc hks
    rw [reach?_plus, reach?_plus]
    refine ih hr (hP.along c c') ?_ c c' ks ks' (along_self hc) hks
    intro d d' ks ks' hd hks
    simp only [hd.offset_eq_iff]
    split
    · exact hk d d' ks ks' hd.1 hks
    · -- The two texts need not be of one length, so the rounds are counted by the longer one.
      rw [furtherReach?_fuel (Nat.le_refl _) (Nat.le_max_left d.rest.length d'.rest.length),
        furtherReach?_fuel (Nat.le_refl _) (Nat.le_max_right d.rest.length d'.rest.length)]
      exact agree_furtherReach? hP (fun P k k' hP hk => ih hr hP hk) hk _ d d' ks ks' hd.1 hks

theorem agree_reachAll? (hS : ∀ κ κ' : Capture, κ.name = κ'.name → κ.text = κ'.text → S κ κ')
    {rs : List Regex} (hrs : ∀ r ∈ rs, r.avoids xs = true) (hP : InStep xs P)
    (hk : Agree S E P k k') : Agree S E P (reachAll? rs k) (reachAll? rs k') := by
  induction rs with
  | nil => exact hk
  | cons r rs ih =>
    exact agree_reach? hS (hrs r List.mem_cons_self) hP
      (ih fun r hr => hrs r (List.mem_cons_of_mem _ hr))

theorem rel_find? (hS : ∀ κ κ', S κ κ' → κ.name = κ'.name) {ks ks' : Captures}
    (h : List.Forall₂ S ks ks') (name : String) : Option.Rel S (ks.find? name) (ks'.find? name) := by
  induction h with
  | nil => exact .none
  | @cons κ κ' ks ks' hκ _ ih =>
    rw [Captures.find?, Captures.find?, List.find?_cons, List.find?_cons, hS κ κ' hκ]
    split
    · exact .some hκ
    · exact ih

end CodeOutline.Regex
