import Mathlib.Data.List.Basic
import CodeOutline.Proofs.Regex.Place

/-! # Outcomes

Every outcome of an expression lies onward from where the match starts, and captures made before
only stand behind the new ones. The rounds of a loop are independent of the fuel that bounds them:
each takes a character, so a loop has no more rounds than characters are left.
-/

namespace CodeOutline.Regex

/-- A way from places to outcomes that never leads back. -/
def Forward (body : Cursor → Captures → List (Cursor × Captures)) : Prop :=
  ∀ c ks, ∀ o ∈ body c ks, o.1 ∈ c.onward

/-- The outcomes of a loop after a round that took a character. -/
def laterRounds (greedy : Bool) (body : Cursor → Captures → List (Cursor × Captures))
    (c : Cursor) (ks : Captures) : List (Cursor × Captures) :=
  furtherRounds greedy body c.rest.length c ks

variable {body : Cursor → Captures → List (Cursor × Captures)} {greedy : Bool}
  {c d : Cursor} {ks : Captures} {o : Cursor × Captures}

theorem mem_furtherRounds {fuel : Nat} :
    o ∈ furtherRounds greedy body (fuel + 1) c ks ↔
      o = (c, ks) ∨ ∃ p ∈ body c ks, p.1.offset ≠ c.offset ∧
        o ∈ furtherRounds greedy body fuel p.1 p.2 := by
  have ha : o ∈ ((body c ks).flatMap fun p =>
      if p.1.offset = c.offset then [] else furtherRounds greedy body fuel p.1 p.2) ↔
      ∃ p ∈ body c ks, p.1.offset ≠ c.offset ∧ o ∈ furtherRounds greedy body fuel p.1 p.2 := by
    rw [List.mem_flatMap]
    refine exists_congr fun p => and_congr_right fun _ => ?_
    by_cases h : p.1.offset = c.offset <;> simp [h]
  cases greedy with
  | true => rw [← ha, furtherRounds, if_pos rfl, List.mem_append, List.mem_singleton, or_comm]
  | false => rw [← ha, furtherRounds, if_neg Bool.false_ne_true, List.mem_cons]

theorem mem_onward_of_mem_furtherRounds (hb : Forward body) {fuel : Nat}
    (h : o ∈ furtherRounds greedy body fuel c ks) : o.1 ∈ c.onward := by
  induction fuel generalizing c ks with
  | zero =>
    obtain rfl := List.mem_singleton.mp h
    exact c.self_mem_onward
  | succ fuel ih =>
    rcases mem_furtherRounds.mp h with rfl | ⟨p, hp, _, ho⟩
    · exact c.self_mem_onward
    · exact Cursor.mem_onward_trans (hb c ks p hp) (ih ho)

theorem flatMap_eq_nil_of_rest (hb : Forward body) (hc : c.rest = [])
    (f : Cursor × Captures → List (Cursor × Captures)) :
    ((body c ks).flatMap fun p => if p.1.offset = c.offset then [] else f p) = [] := by
  refine List.flatMap_eq_nil_iff.mpr fun p hp => ?_
  have he : p.1 = c := by simpa [Cursor.onward_of_nil hc] using hb c ks p hp
  rw [he, if_pos rfl]

theorem furtherRounds_fuel (hb : Forward body) {m n : Nat} (hm : c.rest.length ≤ m)
    (hn : c.rest.length ≤ n) :
    furtherRounds greedy body m c ks = furtherRounds greedy body n c ks := by
  induction m generalizing n c ks with
  | zero =>
    have hc : c.rest = [] := List.eq_nil_of_length_eq_zero (by omega)
    cases n with
    | zero => rfl
    | succ n => simp [furtherRounds, flatMap_eq_nil_of_rest hb hc fun p => _]
  | succ m ih =>
    cases n with
    | zero =>
      have hc : c.rest = [] := List.eq_nil_of_length_eq_zero (by omega)
      simp [furtherRounds, flatMap_eq_nil_of_rest hb hc fun p => _]
    | succ n =>
      have ha : ((body c ks).flatMap fun p =>
          if p.1.offset = c.offset then [] else furtherRounds greedy body m p.1 p.2) =
          (body c ks).flatMap fun p =>
            if p.1.offset = c.offset then [] else furtherRounds greedy body n p.1 p.2 := by
        refine List.flatMap_congr fun p hp => ?_
        split
        · rfl
        · rename_i hne
          have hlt := Cursor.length_rest_lt (hb c ks p hp) hne
          exact ih (by omega) (by omega)
      simp only [furtherRounds, ha]

theorem laterRounds_eq (hb : Forward body) :
    laterRounds greedy body c ks =
      let again := (body c ks).flatMap fun p =>
        if p.1.offset = c.offset then [] else laterRounds greedy body p.1 p.2
      if greedy then again ++ [(c, ks)] else (c, ks) :: again := by
  have h : laterRounds greedy body c ks = furtherRounds greedy body (c.rest.length + 1) c ks :=
    furtherRounds_fuel hb (Nat.le_refl _) (Nat.le_succ _)
  have ha : ((body c ks).flatMap fun p =>
      if p.1.offset = c.offset then [] else furtherRounds greedy body c.rest.length p.1 p.2) =
      (body c ks).flatMap fun p =>
        if p.1.offset = c.offset then [] else laterRounds greedy body p.1 p.2 := by
    refine List.flatMap_congr fun p hp => ?_
    split
    · rfl
    · rename_i hne
      have hlt := Cursor.length_rest_lt (hb c ks p hp) hne
      exact furtherRounds_fuel hb (by omega) (Nat.le_refl _)
  rw [h, furtherRounds, ha]

theorem mem_laterRounds (hb : Forward body) :
    o ∈ laterRounds greedy body c ks ↔
      o = (c, ks) ∨ ∃ p ∈ body c ks, p.1.offset ≠ c.offset ∧
        o ∈ laterRounds greedy body p.1 p.2 := by
  have h : laterRounds greedy body c ks = furtherRounds greedy body (c.rest.length + 1) c ks :=
    furtherRounds_fuel hb (Nat.le_refl _) (Nat.le_succ _)
  rw [h, mem_furtherRounds]
  refine or_congr_right (exists_congr fun p => and_congr_right fun hp =>
    and_congr_right fun hne => ?_)
  have hlt := Cursor.length_rest_lt (hb c ks p hp) hne
  rw [laterRounds, furtherRounds_fuel hb (by omega) (Nat.le_refl _)]

theorem outcomes_plus (greedy : Bool) (r : Regex) (c : Cursor) (ks : Captures) :
    (plus greedy r).outcomes c ks = (r.outcomes c ks).flatMap fun o =>
      if o.1.offset = c.offset then [o] else laterRounds greedy r.outcomes o.1 o.2 := rfl

theorem outcomes_forward (r : Regex) : Forward r.outcomes := by
  intro c ks o h
  induction r generalizing c ks o with
  | empty =>
    obtain rfl := List.mem_singleton.mp h
    exact c.self_mem_onward
  | set chars =>
    simp only [outcomes] at h
    split at h
    · simp at h
    · rename_i x u hc
      split at h
      · obtain rfl := List.mem_singleton.mp h
        exact Cursor.next_mem_onward hc
      · simp at h
  | look l =>
    simp only [outcomes] at h
    split at h
    · obtain rfl := List.mem_singleton.mp h
      exact c.self_mem_onward
    · simp at h
  | group name body ih =>
    obtain ⟨p, hp, rfl⟩ := List.mem_map.mp h
    exact ih c ks p hp
  | seq first second ih₁ ih₂ =>
    obtain ⟨p, hp, ho⟩ := List.mem_flatMap.mp h
    exact Cursor.mem_onward_trans (ih₁ c ks p hp) (ih₂ p.1 p.2 o ho)
  | alt first second ih₁ ih₂ =>
    rcases List.mem_append.mp h with h | h
    · exact ih₁ c ks o h
    · exact ih₂ c ks o h
  | plus greedy body ih =>
    rw [outcomes_plus] at h
    obtain ⟨p, hp, ho⟩ := List.mem_flatMap.mp h
    split at ho
    · obtain rfl := List.mem_singleton.mp ho
      exact ih c ks o hp
    · exact Cursor.mem_onward_trans (ih c ks p hp) (mem_onward_of_mem_furtherRounds ih ho)

/-! ## Captures -/

/-- An outcome with captures from before the match behind its own. -/
def withCaptures (ks : Captures) (o : Cursor × Captures) : Cursor × Captures :=
  (o.1, o.2 ++ ks)

theorem furtherRounds_append {ks' : Captures}
    (hb : ∀ c ks, body c (ks ++ ks') = (body c ks).map (withCaptures ks'))
    (fuel : Nat) (c : Cursor) (ks : Captures) :
    furtherRounds greedy body fuel c (ks ++ ks') =
      (furtherRounds greedy body fuel c ks).map (withCaptures ks') := by
  induction fuel generalizing c ks with
  | zero => rfl
  | succ fuel ih =>
    have ha : ((body c (ks ++ ks')).flatMap fun p =>
        if p.1.offset = c.offset then [] else furtherRounds greedy body fuel p.1 p.2) =
        ((body c ks).flatMap fun p => if p.1.offset = c.offset then []
          else furtherRounds greedy body fuel p.1 p.2).map (withCaptures ks') := by
      rw [hb, List.flatMap_map, List.map_flatMap]
      refine List.flatMap_congr fun p _ => ?_
      simp only [withCaptures, ih]
      split <;> rfl
    simp only [furtherRounds, ha]
    split <;> simp [withCaptures]

/-- What was captured before changes nothing but the captures that stand last. -/
theorem outcomes_append (r : Regex) (c : Cursor) (ks ks' : Captures) :
    r.outcomes c (ks ++ ks') = (r.outcomes c ks).map (withCaptures ks') := by
  induction r generalizing c ks with
  | empty => rfl
  | set chars =>
    simp only [outcomes]
    split
    · rfl
    · split <;> rfl
  | look l =>
    simp only [outcomes]
    split <;> rfl
  | group name body ih =>
    simp only [outcomes, ih, List.map_map]
    rfl
  | seq first second ih₁ ih₂ =>
    simp only [outcomes, ih₁, List.flatMap_map, List.map_flatMap]
    exact List.flatMap_congr fun p _ => ih₂ p.1 p.2
  | alt first second ih₁ ih₂ =>
    simp only [outcomes, ih₁, ih₂, List.map_append]
  | plus greedy body ih =>
    simp only [outcomes_plus, ih, List.flatMap_map, List.map_flatMap]
    refine List.flatMap_congr fun p _ => ?_
    by_cases he : p.1.offset = c.offset
    · simp [withCaptures, he]
    · simp [withCaptures, he, laterRounds, furtherRounds_append ih]

theorem outcomes_eq_map (r : Regex) (c : Cursor) (ks : Captures) :
    r.outcomes c ks = (r.outcomes c []).map (withCaptures ks) :=
  outcomes_append r c [] ks

end CodeOutline.Regex
