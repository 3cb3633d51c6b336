import CodeOutline.Proofs.Regex.Lockstep
import CodeOutline.Proofs.Regex.Search

/-! # Matches one after the other

The matches of an expression that always takes a character are those from the start of the text on:
from a place where there is a match, that one and then the matches from its end, and from any other
place the matches from the next one. So two searches in step find matches that read alike.
-/

namespace CodeOutline.Regex

/-- Every match takes a character. -/
def consumes : Regex → Bool
  | .empty => false
  | .set _ => true
  | .look _ => false
  | .group _ body => body.consumes
  | .seq first second => first.consumes || second.consumes
  | .alt first second => first.consumes && second.consumes
  | .plus _ body => body.consumes

/-- The matches from a place on, one after the other. -/
def matchesFrom (attempt : Cursor → Option (Cursor × Captures)) (c : Cursor) : List Match :=
  match attempt c with
  | some (d, ks) =>
    if d.rest.length < c.rest.length then ⟨c, d.offset, ks⟩ :: matchesFrom attempt d else []
  | none =>
    if c.next.rest.length < c.rest.length then matchesFrom attempt c.next else []
termination_by c.rest.length

variable {r : Regex} {attempt : Cursor → Option (Cursor × Captures)} {c d c' d' : Cursor}
  {ks ks' : Captures} {o : Cursor × Captures} {s : Search} {x : Char} {u w : List Char}

theorem offset_ne_of_consumes (hr : r.consumes = true) (ho : o ∈ r.outcomes c ks) :
    o.1.offset ≠ c.offset := by
  induction r generalizing c ks o with
  | empty => cases hr
  | set s =>
    simp only [outcomes] at ho
    split at ho
    · cases ho
    · rename_i x u hc
      split at ho
      · obtain rfl := List.mem_singleton.mp ho
        rw [Cursor.offset_next hc]
        exact Nat.succ_ne_self _
      · cases ho
  | look l => cases hr
  | group name body ih =>
    obtain ⟨p, hp, rfl⟩ := List.mem_map.mp ho
    exact ih (o := p) hr hp
  | seq first second ih₁ ih₂ =>
    obtain ⟨p, hp, ho⟩ := List.mem_flatMap.mp ho
    have h₁ := Cursor.offset_le_of_mem_onward (outcomes_forward first c ks p hp)
    have h₂ := Cursor.offset_le_of_mem_onward (outcomes_forward second p.1 p.2 o ho)
    rw [consumes, Bool.or_eq_true] at hr
    rcases hr with hr | hr
    · have := ih₁ hr hp
      omega
    · have := ih₂ hr ho
      omega
  | alt first second ih₁ ih₂ =>
    rw [consumes, Bool.and_eq_true] at hr
    rcases List.mem_append.mp ho with ho | ho
    · exact ih₁ hr.1 ho
    · exact ih₂ hr.2 ho
  | plus greedy body ih =>
    rw [outcomes_plus] at ho
    obtain ⟨p, hp, ho⟩ := List.mem_flatMap.mp ho
    have hne := ih hr hp
    rw [if_neg hne] at ho
    have h₁ := Cursor.offset_le_of_mem_onward (outcomes_forward body c ks p hp)
    have h₂ := Cursor.offset_le_of_mem_onward
      (mem_onward_of_mem_furtherRounds (outcomes_forward body) ho)
    omega

theorem outcomes_eq_nil_of_consumes (hr : r.consumes = true) (hc : c.rest = []) :
    r.outcomes c ks = [] := by
  refine List.eq_nil_iff_forall_not_mem.mpr fun o ho => offset_ne_of_consumes hr ho ?_
  have hon := outcomes_forward r c ks o ho
  rw [Cursor.onward_of_nil hc, List.mem_singleton] at hon
  rw [hon]

theorem preferred?_eq_none_of_consumes (hr : r.consumes = true) (hc : c.rest = []) :
    r.preferred? c = none := by
  rw [preferred?, outcomes_eq_nil_of_consumes hr hc]
  rfl

theorem mem_onward_of_preferred? (h : r.preferred? c = some (d, ks)) : d ∈ c.onward :=
  outcomes_forward r c [] (d, ks) (List.mem_of_head? h)

theorem length_rest_lt_of_preferred? (hr : r.consumes = true)
    (h : r.preferred? c = some (d, ks)) : d.rest.length < c.rest.length :=
  Cursor.length_rest_lt (mem_onward_of_preferred? h)
    (offset_ne_of_consumes hr (List.mem_of_head? h))

/-! ## The recursion -/

theorem length_rest_next (h : c.rest = x :: u) : c.next.rest.length < c.rest.length := by
  rw [Cursor.rest_next h, h]
  exact Nat.lt_succ_self _

theorem matchesFrom_of_some (hr : r.consumes = true) (h : r.preferred? c = some (d, ks)) :
    matchesFrom r.preferred? c = ⟨c, d.offset, ks⟩ :: matchesFrom r.preferred? d := by
  rw [matchesFrom, h]
  exact if_pos (length_rest_lt_of_preferred? hr h)

theorem matchesFrom_of_none (h : attempt c = none) (hc : c.rest = x :: u) :
    matchesFrom attempt c = matchesFrom attempt c.next := by
  rw [matchesFrom, h]
  exact if_pos (length_rest_next hc)

theorem matchesFrom_of_end (hr : r.consumes = true) (hc : c.rest = []) :
    matchesFrom r.preferred? c = [] := by
  rw [matchesFrom, preferred?_eq_none_of_consumes hr hc]
  refine if_neg ?_
  rw [hc]
  exact Nat.not_lt_zero _

theorem matchesFrom_past (h : c.rest = w ++ u) (hn : ∀ p ∈ c.along w, attempt p = none) :
    matchesFrom attempt c = matchesFrom attempt (c.past w) := by
  induction w generalizing c with
  | nil => rfl
  | cons y w ih =>
    rw [Cursor.along] at hn
    rw [matchesFrom_of_none (hn c List.mem_cons_self) h]
    exact ih (Cursor.rest_next h) fun p hp => hn p (List.mem_cons_of_mem c hp)

theorem found_foldl_visit (hr : r.consumes = true) (hs : s.resume ≤ c.offset) :
    (c.onward.foldl (Search.visit r.preferred?) s).found.reverse =
      s.found.reverse ++ matchesFrom r.preferred? c := by
  induction hn : c.rest.length using Nat.strongRecOn generalizing c s with
  | ind n ih =>
    cases ha : r.preferred? c with
    | some o =>
      obtain ⟨d, ks⟩ := o
      have hd := mem_onward_of_preferred? ha
      have hne := offset_ne_of_consumes hr (List.mem_of_head? ha)
      have hlt := length_rest_lt_of_preferred? hr ha
      rw [foldl_visit_match hs ha hd hne, matchesFrom_of_some hr ha,
        ih d.rest.length (hn ▸ hlt) (Nat.le_refl _) rfl, List.reverse_cons, List.append_assoc,
        List.singleton_append]
    | none =>
      have hv : Search.visit r.preferred? s c = s := by
        rw [Search.visit, if_neg (Nat.not_lt.mpr hs), ha]
      cases hc : c.rest with
      | nil =>
        rw [Cursor.onward_of_nil hc, matchesFrom_of_end hr hc, List.foldl_cons, hv,
          List.foldl_nil, List.append_nil]
      | cons x u =>
        rw [Cursor.onward_of_cons hc, List.foldl_cons, hv, matchesFrom_of_none ha hc]
        refine ih c.next.rest.length (hn ▸ length_rest_next hc) ?_ rfl
        rw [Cursor.offset_next hc]
        omega

theorem allMatches_eq_matchesFrom (hr : r.consumes = true) (text : List Char) :
    r.allMatches text = matchesFrom r.preferred? (.start text) := by
  rw [allMatches_eq, matchesBy, Cursor.places_eq, found_foldl_visit hr (Nat.le_refl _)]
  rfl

/-! ## Two searches -/

section Searches

variable {S : Capture → Capture → Prop} {B : Cursor → Cursor → Prop} {σ : Type}
  {read : Match → Option σ} {tail : List σ}

/-- The ends of two matches, with what they capture. -/
def Ends (S : Capture → Capture → Prop) (B : Cursor → Cursor → Prop)
    (o o' : Cursor × Captures) : Prop :=
  B o.1 o'.1 ∧ List.Forall₂ S o.2 o'.2

theorem agree_accept (S : Capture → Capture → Prop) (B : Cursor → Cursor → Prop) :
    Agree S (Ends S B) B accept accept :=
  fun _ _ _ _ hc hks => .some ⟨hc, hks⟩

/-- Two searches go in step: where the first one comes to a next character, the second one comes,
maybe after places without a match, to a place where it finds the same. -/
structure SearchInStep (r : Regex) (S : Capture → Capture → Prop)
    (B : Cursor → Cursor → Prop) : Prop where
  consumes : r.consumes = true
  step : ∀ c c' x u, B c c' → c.rest = x :: u → ∃ w u', c'.rest = w ++ u' ∧
    (∀ p ∈ c'.along w, r.preferred? p = none) ∧
      Option.Rel (Ends S B) (r.preferred? c) (r.preferred? (c'.past w)) ∧
        u' ≠ [] ∧ B c.next (c'.past w).next

/-- What the second search finds reads as what the first one finds, and then as what it finds where
the first one is at its end. -/
theorem filterMap_matchesFrom (h : SearchInStep r S B)
    (hread : ∀ m m' : Match, List.Forall₂ S m.captures m'.captures → read m = read m')
    (hend : ∀ c c', B c c' → c.rest = [] →
      (matchesFrom r.preferred? c').filterMap read = tail) (hb : B c c') :
    (matchesFrom r.preferred? c').filterMap read =
      (matchesFrom r.preferred? c).filterMap read ++ tail := by
  induction hn : c.rest.length using Nat.strongRecOn generalizing c c' with
  | ind n ih =>
    cases hc : c.rest with
    | nil => rw [matchesFrom_of_end h.consumes hc, hend c c' hb hc, List.filterMap_nil,
        List.nil_append]
    | cons x u =>
      obtain ⟨w, u', hw, hnone, hrel, hu', hnext⟩ := h.step c c' x u hb hc
      rw [matchesFrom_past hw hnone]
      rcases rel_cases hrel with ⟨ha, ha'⟩ | ⟨⟨d, ks⟩, ⟨d', ks'⟩, ha, ha', hends⟩
      · obtain ⟨y, v, rfl⟩ := List.exists_cons_of_ne_nil hu'
        rw [matchesFrom_of_none ha hc, matchesFrom_of_none ha' (Cursor.rest_past hw)]
        exact ih c.next.rest.length (hn ▸ length_rest_next hc) hnext rfl
      · have hm : read ⟨c'.past w, d'.offset, ks'⟩ = read ⟨c, d.offset, ks⟩ :=
          (hread _ _ hends.2).symm
        rw [matchesFrom_of_some h.consumes ha, matchesFrom_of_some h.consumes ha',
          List.filterMap_cons, List.filterMap_cons, hm,
          ih d.rest.length (hn ▸ length_rest_lt_of_preferred? h.consumes ha) hends.1 rfl]
        cases read ⟨c, d.offset, ks⟩ <;> rfl

end Searches

end CodeOutline.Regex
