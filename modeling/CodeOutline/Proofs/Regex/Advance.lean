import CodeOutline.Proofs.Regex.Outcome

/-! # Advancing

Whether an expression can take a character and come to a place that leads on, form by form. These
equations are what a survey computes from the end of a text to its start.
-/

namespace CodeOutline.Regex

/-- The expression takes a character and comes to a place that leads on. -/
def advances (r : Regex) (leads : Cursor → Bool) (c : Cursor) : Bool :=
  (r.outcomes c []).any fun o => o.1.offset != c.offset && leads o.1

/-- A place that a match from `c` may end at: `stays` tells of `c` itself, `leads` of all others. -/
def endsAt (c : Cursor) (leads : Cursor → Bool) (stays : Bool) (d : Cursor) : Bool :=
  if d.offset = c.offset then stays else leads d

variable {r first second body : Regex} {leads : Cursor → Bool} {greedy : Bool} {c : Cursor}

theorem exists_outcome_iff (ks : Captures) (p : Cursor → Prop) :
    (∃ o ∈ r.outcomes c ks, p o.1) ↔ ∃ o ∈ r.outcomes c [], p o.1 := by
  rw [outcomes_eq_map r c ks]
  simp [withCaptures]

theorem advances_iff (ks : Captures) :
    r.advances leads c = true ↔
      ∃ o ∈ r.outcomes c ks, o.1.offset ≠ c.offset ∧ leads o.1 = true := by
  rw [exists_outcome_iff ks fun d => d.offset ≠ c.offset ∧ leads d = true]
  simp [advances]

theorem nullable_iff (r : Regex) (c : Cursor) (ks : Captures) :
    r.nullable c = true ↔ ∃ o ∈ r.outcomes c ks, o.1.offset = c.offset := by
  induction r generalizing c ks with
  | empty => simp [nullable, outcomes]
  | set chars =>
    simp only [nullable, outcomes, Bool.false_eq_true, false_iff]
    rintro ⟨o, ho, he⟩
    split at ho
    · simp at ho
    · rename_i x u hc
      split at ho
      · obtain rfl := List.mem_singleton.mp ho
        simp [Cursor.offset_next hc] at he
      · simp at ho
  | look l => by_cases h : l.holds c.before c.rest.head? = true <;> simp [nullable, outcomes, h]
  | group name body ih =>
    rw [nullable, ih c ks]
    simp [outcomes]
  | seq first second ih₁ ih₂ =>
    rw [nullable, Bool.and_eq_true, ih₁ c ks, ih₂ c ks]
    simp only [outcomes, List.mem_flatMap]
    constructor
    · rintro ⟨⟨p, hp, he⟩, q, hq, he'⟩
      have hpc := Cursor.eq_of_mem_onward (outcomes_forward first c ks p hp) he
      have hq' : ∃ o ∈ second.outcomes c p.2, o.1.offset = c.offset :=
        (exists_outcome_iff p.2 fun d => d.offset = c.offset).mpr
          ((exists_outcome_iff ks fun d => d.offset = c.offset).mp ⟨q, hq, he'⟩)
      obtain ⟨o, ho, he''⟩ := hq'
      exact ⟨o, ⟨p, hp, hpc.symm ▸ ho⟩, he''⟩
    · rintro ⟨o, ⟨p, hp, ho⟩, he⟩
      have hp' := Cursor.offset_le_of_mem_onward (outcomes_forward first c ks p hp)
      have ho' := Cursor.offset_le_of_mem_onward (outcomes_forward second p.1 p.2 o ho)
      have hpc := Cursor.eq_of_mem_onward (outcomes_forward first c ks p hp) (by omega)
      rw [hpc] at ho
      exact ⟨⟨p, hp, by rw [hpc]⟩, (exists_outcome_iff ks fun d => d.offset = c.offset).mpr
        ((exists_outcome_iff p.2 fun d => d.offset = c.offset).mp ⟨o, ho, he⟩)⟩
  | alt first second ih₁ ih₂ =>
    rw [nullable, Bool.or_eq_true, ih₁ c ks, ih₂ c ks]
    simp only [outcomes, List.mem_append, or_and_right, exists_or]
  | plus greedy body ih =>
    rw [nullable, ih c ks]
    simp only [outcomes_plus, List.mem_flatMap]
    constructor
    · rintro ⟨o, ho, he⟩
      exact ⟨o, ⟨o, ho, by simp [he]⟩, he⟩
    · rintro ⟨o, ⟨p, hp, ho⟩, he⟩
      refine ⟨p, hp, ?_⟩
      split at ho
      · assumption
      · have hp' := Cursor.offset_le_of_mem_onward (outcomes_forward body c ks p hp)
        have ho' := Cursor.offset_le_of_mem_onward
          (mem_onward_of_mem_furtherRounds (outcomes_forward body) ho)
        omega

theorem exists_endsAt_iff (ks : Captures) (stays : Bool) :
    (∃ o ∈ r.outcomes c ks, endsAt c leads stays o.1 = true) ↔
      r.advances leads c = true ∨ (r.nullable c = true ∧ stays = true) := by
  rw [advances_iff ks, nullable_iff r c ks]
  constructor
  · rintro ⟨o, ho, h⟩
    by_cases he : o.1.offset = c.offset
    · exact Or.inr ⟨⟨o, ho, he⟩, by simpa [endsAt, he] using h⟩
    · exact Or.inl ⟨o, ho, he, by simpa [endsAt, he] using h⟩
  · rintro (⟨o, ho, he, h⟩ | ⟨⟨o, ho, he⟩, h⟩)
    · exact ⟨o, ho, by simp [endsAt, he, h]⟩
    · exact ⟨o, ho, by simp [endsAt, he, h]⟩

theorem exists_leads_iff (ks : Captures) :
    (∃ o ∈ r.outcomes c ks, leads o.1 = true) ↔
      r.advances leads c = true ∨ (r.nullable c = true ∧ leads c = true) := by
  rw [← exists_endsAt_iff ks (leads c)]
  refine exists_congr fun o => and_congr_right fun ho => ?_
  by_cases he : o.1.offset = c.offset
  · simp [endsAt, Cursor.eq_of_mem_onward (outcomes_forward r c ks o ho) he]
  · simp [endsAt, he]

/-! ## What each form of expression adds -/

theorem advances_set (chars : CharSet) :
    (set chars).advances leads c =
      match c.rest with
      | [] => false
      | x :: _ => chars.contains x && leads c.next := by
  cases hc : c.rest with
  | nil => simp [advances, outcomes, hc]
  | cons x u =>
    by_cases h : chars.contains x = true <;>
      simp [advances, outcomes, hc, h, Cursor.offset_next hc]

theorem advances_group (name : String) :
    (group name body).advances leads c = body.advances leads c := by
  simp only [advances, outcomes, List.any_map]
  rfl

theorem advances_seq :
    (seq first second).advances leads c =
      (first.advances (fun d => second.advances leads d || (second.nullable d && leads d)) c ||
        (first.nullable c && second.advances leads c)) := by
  rw [Bool.eq_iff_iff, Bool.or_eq_true, Bool.and_eq_true, advances_iff [], advances_iff [],
    nullable_iff first c []]
  simp only [outcomes, List.mem_flatMap, Bool.or_eq_true, Bool.and_eq_true]
  constructor
  · rintro ⟨o, ⟨p, hp, ho⟩, hne, hl⟩
    have hf := outcomes_forward first c [] p hp
    by_cases he : p.1.offset = c.offset
    · obtain hpc := Cursor.eq_of_mem_onward hf he
      rw [hpc] at ho
      exact Or.inr ⟨⟨p, hp, he⟩, (advances_iff p.2).mpr ⟨o, ho, hne, hl⟩⟩
    · exact Or.inl ⟨p, hp, he, (exists_leads_iff p.2).mp ⟨o, ho, hl⟩⟩
  · rintro (⟨p, hp, hne, hl⟩ | ⟨⟨p, hp, he⟩, ha⟩)
    · obtain ⟨o, ho, hlo⟩ := (exists_leads_iff p.2).mpr hl
      have hf := Cursor.offset_le_of_mem_onward (outcomes_forward first c [] p hp)
      have hf' := Cursor.offset_le_of_mem_onward (outcomes_forward second p.1 p.2 o ho)
      exact ⟨o, ⟨p, hp, ho⟩, by omega, hlo⟩
    · have hpc := Cursor.eq_of_mem_onward (outcomes_forward first c [] p hp) he
      obtain ⟨o, ho, hne, hl⟩ := (advances_iff p.2).mp ha
      exact ⟨o, ⟨p, hp, hpc.symm ▸ ho⟩, hne, hl⟩

theorem advances_alt :
    (alt first second).advances leads c =
      (first.advances leads c || second.advances leads c) := by
  simp [advances, outcomes]

/-- After a round the loop may end, or take one more round that advances. -/
theorem exists_laterRounds_iff (ks : Captures) :
    (∃ o ∈ laterRounds greedy body.outcomes c ks, leads o.1 = true) ↔
      leads c = true ∨ (plus greedy body).advances leads c = true := by
  rw [advances_iff ks]
  simp only [outcomes_plus, List.mem_flatMap]
  constructor
  · rintro ⟨o, ho, hl⟩
    rcases (mem_laterRounds (outcomes_forward body)).mp ho with rfl | ⟨p, hp, hne, ho⟩
    · exact Or.inl hl
    · have hp' := Cursor.offset_le_of_mem_onward (outcomes_forward body c ks p hp)
      have ho' := Cursor.offset_le_of_mem_onward
        (mem_onward_of_mem_furtherRounds (outcomes_forward body) ho)
      exact Or.inr ⟨o, ⟨p, hp, by rwa [if_neg hne]⟩, by omega, hl⟩
  · rintro (hl | ⟨o, ⟨p, hp, ho⟩, hne, hl⟩)
    · exact ⟨(c, ks), (mem_laterRounds (outcomes_forward body)).mpr (Or.inl rfl), hl⟩
    · refine ⟨o, (mem_laterRounds (outcomes_forward body)).mpr (Or.inr ?_), hl⟩
      split at ho
      · rename_i he
        obtain rfl := List.mem_singleton.mp ho
        exact absurd he hne
      · exact ⟨p, hp, by assumption, ho⟩

theorem advances_plus :
    (plus greedy body).advances leads c =
      body.advances (fun d => leads d || (plus greedy body).advances leads d) c := by
  rw [Bool.eq_iff_iff, advances_iff [], advances_iff []]
  simp only [outcomes_plus, List.mem_flatMap, Bool.or_eq_true]
  constructor
  · rintro ⟨o, ⟨p, hp, ho⟩, hne, hl⟩
    split at ho
    · rename_i he
      obtain rfl := List.mem_singleton.mp ho
      exact absurd he hne
    · rename_i hne'
      exact ⟨p, hp, hne', (exists_laterRounds_iff p.2).mp ⟨o, ho, hl⟩⟩
  · rintro ⟨p, hp, hne, hl⟩
    obtain ⟨o, ho, hlo⟩ := (exists_laterRounds_iff p.2).mpr hl
    have hp' := Cursor.offset_le_of_mem_onward (outcomes_forward body c [] p hp)
    have ho' := Cursor.offset_le_of_mem_onward
      (mem_onward_of_mem_furtherRounds (outcomes_forward body) ho)
    exact ⟨o, ⟨p, hp, by rwa [if_neg hne]⟩, by omega, hlo⟩

end CodeOutline.Regex
