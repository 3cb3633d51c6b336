import CodeOutline.Proofs.Regex.Lockstep
import CodeOutline.Proofs.Regex.Search

/-! # What expressions spell

An expression spells the texts that its matches can read. A group captures a text that its body
spells, whatever comes before and after it, and this bounds most captures. What a lazy loop takes is
bounded by what follows it: where that would have gone on from an earlier place, the loop ends.
-/

namespace CodeOutline.Regex

/-- The texts that a match of an expression can read. -/
inductive Spells : Regex → List Char → Prop
  | empty : Spells .empty []
  | set {s : CharSet} {x : Char} (h : s.contains x = true) : Spells (.set s) [x]
  | look (l : Look) : Spells (.look l) []
  | group {r : Regex} {u : List Char} (name : String) (h : Spells r u) : Spells (.group name r) u
  | seq {r r' : Regex} {u v : List Char} (hu : Spells r u) (hv : Spells r' v) :
    Spells (.seq r r') (u ++ v)
  | first {r r' : Regex} {u : List Char} (h : Spells r u) : Spells (.alt r r') u
  | second {r r' : Regex} {u : List Char} (h : Spells r' u) : Spells (.alt r r') u
  | once {greedy : Bool} {r : Regex} {u : List Char} (h : Spells r u) : Spells (.plus greedy r) u
  | again {greedy : Bool} {r : Regex} {u v : List Char} (hu : Spells r u)
    (hv : Spells (.plus greedy r) v) : Spells (.plus greedy r) (u ++ v)

/-- Reading a text leads from one place to another. -/
structure Reads (c : Cursor) (u : List Char) (d : Cursor) : Prop where
  rest : c.rest = u ++ d.rest
  place : d = c.past u

/-- The groups of an expression with their bodies, in order of their opening. -/
def groups : Regex → List (String × Regex)
  | .empty => []
  | .set _ => []
  | .look _ => []
  | .group name body => (name, body) :: body.groups
  | .seq first second => first.groups ++ second.groups
  | .alt first second => first.groups ++ second.groups
  | .plus _ body => body.groups

/-- Every captured text is as asked of its group. -/
def Records (Q : String → List Char → Prop) (ks : Captures) : Prop :=
  ∀ κ ∈ ks, Q κ.name κ.text

/-- The bodies of the groups spell only texts that are as asked. -/
def Bounds (Q : String → List Char → Prop) (r : Regex) : Prop :=
  ∀ g ∈ r.groups, ∀ u, Spells g.2 u → Q g.1 u

/-- Captures that are as asked stay so, whatever is captured on the way to an end. -/
def Ensures (Q : String → List Char → Prop) (k : Follow) : Prop :=
  ∀ c ks d ks', Records Q ks → k c ks = some (d, ks') → Records Q ks'

variable {Q : String → List Char → Prop} {r r' : Regex} {rs : List Regex} {k : Follow}
  {c d e : Cursor} {ks ks' : Captures} {o : Cursor × Captures} {s : CharSet} {greedy : Bool}
  {x : Char} {u v : List Char} {name : String} {I : Cursor → Captures → Prop}

/-! ## Spelled texts -/

theorem spells_empty : Spells .empty u ↔ u = [] := by
  constructor
  · rintro ⟨⟩
    rfl
  · rintro rfl
    exact .empty

theorem spells_set : Spells (.set s) u ↔ ∃ x, u = [x] ∧ s.contains x = true := by
  constructor
  · rintro ⟨⟩
    exact ⟨_, rfl, ‹_›⟩
  · rintro ⟨x, rfl, h⟩
    exact .set h

theorem spells_char : Spells (char x) u ↔ u = [x] := by
  rw [char, spells_set]
  constructor
  · rintro ⟨y, rfl, h⟩
    rw [CharSet.contains_singleton, beq_iff_eq] at h
    rw [h]
  · rintro rfl
    exact ⟨x, rfl, by rw [CharSet.contains_singleton, beq_self_eq_true]⟩

theorem spells_seq :
    Spells (.seq r r') u ↔ ∃ v w, u = v ++ w ∧ Spells r v ∧ Spells r' w := by
  constructor
  · rintro ⟨⟩
    exact ⟨_, _, rfl, ‹_›, ‹_›⟩
  · rintro ⟨v, w, rfl, hv, hw⟩
    exact .seq hv hw

theorem spells_alt : Spells (.alt r r') u ↔ Spells r u ∨ Spells r' u := by
  constructor
  · rintro (_ | _ | _ | _ | _ | h | h)
    · exact Or.inl h
    · exact Or.inr h
  · rintro (h | h)
    · exact .first h
    · exact .second h

theorem spells_opt : Spells (opt r) u ↔ Spells r u ∨ u = [] := by
  rw [opt, spells_alt, spells_empty]

theorem spells_concat_cons :
    Spells (concat (r :: rs)) u ↔ ∃ v w, u = v ++ w ∧ Spells r v ∧ Spells (concat rs) w := by
  cases rs with
  | nil =>
    simp only [concat, spells_empty]
    constructor
    · intro h
      exact ⟨u, [], (List.append_nil u).symm, h, rfl⟩
    · rintro ⟨v, w, rfl, h, rfl⟩
      rwa [List.append_nil]
  | cons r' rs => exact spells_seq

theorem exists_eq_append_of_spells (h : Spells (concat (rs ++ [.char x])) u) :
    ∃ v, u = v ++ [x] := by
  induction rs generalizing u with
  | nil => exact ⟨[], spells_char.mp h⟩
  | cons r rs ih =>
    obtain ⟨v, w, rfl, _, hw⟩ := spells_concat_cons.mp h
    obtain ⟨w, rfl⟩ := ih hw
    exact ⟨v ++ w, (List.append_assoc v w [x]).symm⟩

theorem spells_plus_set :
    Spells (.plus greedy (.set s)) u ↔ u ≠ [] ∧ ∀ x ∈ u, s.contains x = true := by
  constructor
  · intro h
    generalize hr : Regex.plus greedy (.set s) = r at h
    induction h with
    | empty | set | look | group | seq | first | second => cases hr
    | once h =>
      cases hr
      obtain ⟨x, rfl, hx⟩ := spells_set.mp h
      simpa using hx
    | again hu hv _ ih =>
      cases hr
      obtain ⟨x, rfl, hx⟩ := spells_set.mp hu
      exact ⟨List.cons_ne_nil x _, List.forall_mem_cons.mpr ⟨hx, (ih rfl).2⟩⟩
  · rintro ⟨hne, hu⟩
    induction u with
    | nil => exact absurd rfl hne
    | cons x u ih =>
      obtain ⟨hx, hu⟩ := List.forall_mem_cons.mp hu
      cases u with
      | nil => exact .once (.set hx)
      | cons y u => exact .again (.set hx) (ih (List.cons_ne_nil y u) hu)

theorem spells_star_set : Spells (star (.set s)) u ↔ ∀ x ∈ u, s.contains x = true := by
  rw [star, spells_opt, spells_plus_set]
  constructor
  · rintro (h | rfl)
    · exact h.2
    · exact fun x hx => absurd hx List.not_mem_nil
  · intro h
    exact (em (u = [])).symm.imp (fun hne => ⟨hne, h⟩) id

/-! ## Outcomes -/

theorem Reads.refl (c : Cursor) : Reads c [] c := ⟨rfl, rfl⟩

theorem Reads.trans (h : Reads c u d) (h' : Reads d v e) : Reads c (u ++ v) e where
  rest := by rw [h.rest, h'.rest, List.append_assoc]
  place := by rw [h'.place, h.place, Cursor.past_append]

theorem Reads.offset_eq (h : Reads c u d) : d.offset = c.offset + u.length := by
  rw [h.place, Cursor.offset_past h.rest]

theorem Reads.text_eq (h : Reads c u d) (name : String) :
    (⟨name, c, d.offset⟩ : Capture).text = u :=
  text_past h.rest h.place name

theorem spells_of_mem_furtherRounds {fuel : Nat}
    (hr : ∀ c ks, ∀ o ∈ r.outcomes c ks, ∃ u, Reads c u o.1 ∧ Spells r u)
    (h : o ∈ furtherRounds greedy r.outcomes fuel c ks) :
    o.1 = c ∨ ∃ u, Reads c u o.1 ∧ Spells (.plus greedy r) u := by
  induction fuel generalizing c ks with
  | zero => exact Or.inl (by rw [List.mem_singleton.mp h])
  | succ fuel ih =>
    rcases mem_furtherRounds.mp h with rfl | ⟨p, hp, _, ho⟩
    · exact Or.inl rfl
    · obtain ⟨u, hu, hs⟩ := hr c ks p hp
      rcases ih ho with he | ⟨v, hv, hs'⟩
      · exact Or.inr ⟨u, he ▸ hu, .once hs⟩
      · exact Or.inr ⟨u ++ v, hu.trans hv, .again hs hs'⟩

/-- Every outcome reads a text that the expression spells. -/
theorem spells_of_mem_outcomes (h : o ∈ r.outcomes c ks) :
    ∃ u, Reads c u o.1 ∧ Spells r u := by
  induction r generalizing c ks o with
  | empty =>
    obtain rfl := List.mem_singleton.mp h
    exact ⟨[], Reads.refl c, .empty⟩
  | set s =>
    simp only [outcomes] at h
    split at h
    · cases h
    · rename_i x u hc
      split at h
      · rename_i hx
        obtain rfl := List.mem_singleton.mp h
        exact ⟨[x], ⟨by rw [hc, Cursor.rest_next hc, List.singleton_append], rfl⟩, .set hx⟩
      · cases h
  | look l =>
    simp only [outcomes] at h
    split at h
    · obtain rfl := List.mem_singleton.mp h
      exact ⟨[], Reads.refl c, .look l⟩
    · cases h
  | group name body ih =>
    obtain ⟨p, hp, rfl⟩ := List.mem_map.mp h
    obtain ⟨u, hu, hs⟩ := ih hp
    exact ⟨u, hu, .group name hs⟩
  | seq first second ih₁ ih₂ =>
    obtain ⟨p, hp, ho⟩ := List.mem_flatMap.mp h
    obtain ⟨u, hu, hs⟩ := ih₁ hp
    obtain ⟨v, hv, hs'⟩ := ih₂ ho
    exact ⟨u ++ v, hu.trans hv, .seq hs hs'⟩
  | alt first second ih₁ ih₂ =>
    rcases List.mem_append.mp h with h | h
    · obtain ⟨u, hu, hs⟩ := ih₁ h
      exact ⟨u, hu, .first hs⟩
    · obtain ⟨u, hu, hs⟩ := ih₂ h
      exact ⟨u, hu, .second hs⟩
  | plus greedy body ih =>
    rw [outcomes_plus] at h
    obtain ⟨p, hp, ho⟩ := List.mem_flatMap.mp h
    obtain ⟨u, hu, hs⟩ := ih hp
    split at ho
    · obtain rfl := List.mem_singleton.mp ho
      exact ⟨u, hu, .once hs⟩
    · rcases spells_of_mem_furtherRounds (fun _ _ _ => ih) ho with he | ⟨v, hv, hs'⟩
      · exact ⟨u, he ▸ hu, .once hs⟩
      · exact ⟨u ++ v, hu.trans hv, .again hs hs'⟩

theorem mem_outcomes_plus_set (hu : Reads c u d) (hs : Spells (.plus greedy (.set s)) u) :
    (d, ks) ∈ (plus greedy (set s)).outcomes c ks := by
  obtain ⟨hne, hu'⟩ := spells_plus_set.mp hs
  have hlater : ∀ (u : List Char) (c : Cursor), Reads c u d → (∀ x ∈ u, s.contains x = true) →
      (d, ks) ∈ laterRounds greedy (set s).outcomes c ks := by
    intro u
    induction u with
    | nil =>
      rintro c ⟨hr, rfl⟩ -
      exact (mem_laterRounds (outcomes_forward (set s))).mpr (Or.inl rfl)
    | cons x u ih =>
      rintro ⟨n, b, t⟩ ⟨rfl, hp⟩ hxu
      obtain ⟨hx, hu⟩ := List.forall_mem_cons.mp hxu
      refine (mem_laterRounds (outcomes_forward (set s))).mpr (Or.inr ?_)
      refine ⟨(⟨n + 1, some x, u ++ d.rest⟩, ks), by simp [outcomes, hx, Cursor.next], by simp, ?_⟩
      exact ih _ ⟨rfl, hp⟩ hu
  obtain ⟨x, u, rfl⟩ := List.exists_cons_of_ne_nil hne
  obtain ⟨n, b, t⟩ := c
  obtain ⟨rfl, hp⟩ := hu
  obtain ⟨hx, hu⟩ := List.forall_mem_cons.mp hu'
  rw [List.cons_append, outcomes_plus_set, if_pos hx]
  exact hlater u _ ⟨rfl, hp⟩ hu

/-! ## Captures -/

theorem Records.nil : Records Q [] := fun _ h => absurd h List.not_mem_nil

theorem Records.cons (hr : Reads c u d) (hu : Q name u) (h : Records Q ks) :
    Records Q (⟨name, c, d.offset⟩ :: ks) :=
  List.forall_mem_cons.mpr ⟨by rwa [hr.text_eq], h⟩

theorem keeps_of_mem_furtherRounds {fuel : Nat}
    (hr : ∀ c ks, I c ks → ∀ o ∈ r.outcomes c ks, I o.1 o.2) (hI : I c ks)
    (h : o ∈ furtherRounds greedy r.outcomes fuel c ks) : I o.1 o.2 := by
  induction fuel generalizing c ks with
  | zero => rwa [List.mem_singleton.mp h]
  | succ fuel ih =>
    rcases mem_furtherRounds.mp h with rfl | ⟨p, hp, _, ho⟩
    · exact hI
    · exact ih (hr c ks hI p hp) ho

/-- What is kept by every character that is read and by every capture that is made holds of all
outcomes. -/
theorem keeps_of_mem_outcomes
    (hnext : ∀ c x u ks, c.rest = x :: u → I c ks → I c.next ks)
    (hgroup : ∀ g ∈ r.groups, ∀ c ks, I c ks → ∀ o ∈ g.2.outcomes c ks, I o.1 o.2 →
      I o.1 (⟨g.1, c, o.1.offset⟩ :: o.2))
    (hI : I c ks) (h : o ∈ r.outcomes c ks) : I o.1 o.2 := by
  induction r generalizing c ks o with
  | empty => rwa [List.mem_singleton.mp h]
  | set s =>
    simp only [outcomes] at h
    split at h
    · cases h
    · rename_i x u hc
      split at h
      · obtain rfl := List.mem_singleton.mp h
        exact hnext c x u ks hc hI
      · cases h
  | look l =>
    simp only [outcomes] at h
    split at h
    · rwa [List.mem_singleton.mp h]
    · cases h
  | group name body ih =>
    obtain ⟨hname, hbody⟩ := List.forall_mem_cons.mp hgroup
    obtain ⟨p, hp, rfl⟩ := List.mem_map.mp h
    exact hname c ks hI p hp (ih hbody hI hp)
  | seq first second ih₁ ih₂ =>
    obtain ⟨h₁, h₂⟩ := List.forall_mem_append.mp hgroup
    obtain ⟨p, hp, ho⟩ := List.mem_flatMap.mp h
    exact ih₂ h₂ (ih₁ h₁ hI hp) ho
  | alt first second ih₁ ih₂ =>
    obtain ⟨h₁, h₂⟩ := List.forall_mem_append.mp hgroup
    rcases List.mem_append.mp h with h | h
    · exact ih₁ h₁ hI h
    · exact ih₂ h₂ hI h
  | plus greedy body ih =>
    rw [outcomes_plus] at h
    obtain ⟨p, hp, ho⟩ := List.mem_flatMap.mp h
    split at ho
    · rw [List.mem_singleton.mp ho]
      exact ih hgroup hI hp
    · exact keeps_of_mem_furtherRounds (fun _ _ hI _ ho => ih hgroup hI ho) (ih hgroup hI hp) ho

theorem records_of_mem_outcomes (hr : Bounds Q r) (hks : Records Q ks)
    (h : o ∈ r.outcomes c ks) : Records Q o.2 := by
  refine keeps_of_mem_outcomes (I := fun _ ks => Records Q ks) (fun _ _ _ _ _ hks => hks) ?_ hks h
  intro g hg c ks _ o ho hks
  obtain ⟨u, hu, hs⟩ := spells_of_mem_outcomes ho
  exact hks.cons hu (hr g hg u hs)

theorem captures_eq_of_noGroups (hr : r.groups = []) (h : o ∈ r.outcomes c ks) : o.2 = ks := by
  refine keeps_of_mem_outcomes (I := fun _ ks' => ks' = ks) (fun _ _ _ _ _ hks => hks) ?_ rfl h
  intro g hg
  rw [hr] at hg
  cases hg

/-! ## What comes first -/

theorem mem_outcomes_concat_cons :
    o ∈ (concat (r :: rs)).outcomes c ks ↔
      ∃ p ∈ r.outcomes c ks, o ∈ (concat rs).outcomes p.1 p.2 := by
  cases rs with
  | nil => simp [concat, outcomes]
  | cons r' rs => simp [concat, outcomes, List.mem_flatMap]

theorem exists_of_mem_outcomes_cons (hr : r.groups = [])
    (h : o ∈ (concat (r :: rs)).outcomes c ks) :
    ∃ u d, Reads c u d ∧ Spells r u ∧ o ∈ (concat rs).outcomes d ks := by
  obtain ⟨p, hp, ho⟩ := mem_outcomes_concat_cons.mp h
  obtain ⟨u, hu, hs⟩ := spells_of_mem_outcomes hp
  rw [captures_eq_of_noGroups hr hp] at ho
  exact ⟨u, p.1, hu, hs, ho⟩

theorem exists_of_mem_outcomes_group_cons (hr : r.groups = [])
    (h : o ∈ (concat (group name r :: rs)).outcomes c ks) :
    ∃ u d, Reads c u d ∧ Spells r u ∧ o ∈ (concat rs).outcomes d (⟨name, c, d.offset⟩ :: ks) := by
  obtain ⟨_, hm, ho⟩ := mem_outcomes_concat_cons.mp h
  obtain ⟨p, hp, rfl⟩ := List.mem_map.mp hm
  obtain ⟨u, hu, hs⟩ := spells_of_mem_outcomes hp
  simp only [captures_eq_of_noGroups hr hp] at ho
  exact ⟨u, p.1, hu, hs, ho⟩

/-! ## What captures are ensured -/

theorem ensures_accept : Ensures Q accept := by
  intro c ks d ks' hks h
  cases h
  exact hks

theorem ensures_reach? (hr : Bounds Q r) (hk : Ensures Q k) : Ensures Q (r.reach? k) := by
  intro c ks d ks' hks h
  obtain ⟨o, ho, hd⟩ := List.exists_of_findSome?_eq_some h
  exact hk o.1 o.2 d ks' (records_of_mem_outcomes hr hks ho) hd

theorem ensures_reachAll? (hrs : Bounds Q (concat rs)) (hk : Ensures Q k) :
    Ensures Q (reachAll? rs k) := by
  rw [← reach?_concat]
  exact ensures_reach? hrs hk

theorem ensures_reachAll?_append (rs : List Regex) {rs' : List Regex} (hrs : Bounds Q (concat rs))
    (hk : Ensures Q (reachAll? rs' k)) : Ensures Q (reachAll? (rs ++ rs') k) := by
  rw [reachAll?_append]
  exact ensures_reachAll? hrs hk

theorem ensures_opt (hr : Ensures Q (r.reach? k)) (hk : Ensures Q k) :
    Ensures Q ((opt r).reach? k) := by
  intro c ks d ks' hks h
  rw [reach?_opt] at h
  rcases Option.or_eq_some_iff.mp h with h | ⟨_, h⟩
  · exact hr c ks d ks' hks h
  · exact hk c ks d ks' hks h

/-! ## Lazy loops -/

/-- The way to go on has an end from every place before a character from which a later place has
one. -/
def Prefers (k : Follow) (x : Char) : Prop :=
  ∀ c u d ks ks', c.rest.head? = some x → Reads c u d →
    (k d ks').isSome = true → (k c ks).isSome = true

theorem exists_of_lazyStar_set (h : (lazyStar (.set s)).reach? k c ks = some o) :
    ∃ u d, Reads c u d ∧ k d ks = some o ∧
      ∀ v y w, u = v ++ y :: w → k (c.past v) ks = none := by
  obtain ⟨n, b, t⟩ := c
  induction t generalizing n b with
  | nil =>
    rw [reach?_lazyStar_set_nil] at h
    exact ⟨[], _, Reads.refl _, h, fun v y w hu => by simp at hu⟩
  | cons x t ih =>
    rw [reach?_lazyStar_set_cons] at h
    rcases Option.or_eq_some_iff.mp h with h | ⟨hn, h⟩
    · exact ⟨[], _, Reads.refl _, h, fun v y w hu => by simp at hu⟩
    · split at h
      · obtain ⟨u, d, hu, hd, hbefore⟩ := ih (n + 1) (some x) h
        refine ⟨x :: u, d, ⟨by rw [List.cons_append, ← hu.rest], hu.place⟩, hd, ?_⟩
        intro v y w hv
        cases v with
        | nil => exact hn
        | cons z v => exact hbefore v y w (List.cons.inj hv).2
      · cases h

/-- A lazy loop that is captured takes no character before which what follows has an end whenever
it has one later. -/
theorem ensures_lazyStar_set (hk : Ensures Q k) (hx : Prefers k x) (hq : ∀ u, x ∉ u → Q name u) :
    Ensures Q ((group name (lazyStar (.set s))).reach? k) := by
  intro c ks d ks' hks h
  rw [reach?_group] at h
  obtain ⟨u, e, hu, he, hbefore⟩ := exists_of_lazyStar_set h
  refine hk e _ d ks' (hks.cons hu (hq u fun hm => ?_)) he
  -- The loop would have ended before the character, from where there is an end as well.
  obtain ⟨v, w, rfl⟩ := List.append_of_mem hm
  have hr : c.rest = v ++ (x :: w ++ e.rest) := by rw [hu.rest, List.append_assoc]
  have hl : Reads (c.past v) (x :: w) e :=
    ⟨Cursor.rest_past hr, by rw [hu.place, Cursor.past_append]⟩
  have hend := hx (c.past v) (x :: w) e (⟨name, c, (c.past v).offset⟩ :: ks)
    (⟨name, c, e.offset⟩ :: ks) (by rw [hl.rest]; rfl) hl (by rw [he]; rfl)
  rw [hbefore v x w rfl] at hend
  cases hend

end CodeOutline.Regex
