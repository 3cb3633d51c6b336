import CodeOutline.Proofs.Regex.CharSet
import CodeOutline.Proofs.Regex.Outcome

/-! # What a match reads

An expression is followed through a text together with what comes after it: the first outcome that
what follows accepts is the one that counts. Rules say which characters a loop reads before what
follows accepts, and where an expression refuses a text whatever follows it.
-/

namespace CodeOutline.Regex

/-- What comes after an expression, from a place and with the captures so far. -/
abbrev Follow := Cursor → Captures → Option (Cursor × Captures)

/-- The first outcome that what follows accepts. -/
def reach? (r : Regex) (k : Follow) : Follow := fun c ks =>
  (r.outcomes c ks).findSome? fun o => k o.1 o.2

/-- One expression after the other, and then what follows. -/
def reachAll? : List Regex → Follow → Follow
  | [], k => k
  | r :: rs, k => r.reach? (reachAll? rs k)

/-- The character before a place that is reached by reading a text. -/
def lastOf (b : Option Char) : List Char → Option Char
  | [] => b
  | x :: u => lastOf (some x) u

section Equations

variable {k : Follow} {c : Cursor} {ks : Captures} {o : Nat} {b : Option Char} {x y : Char}
  {u v : List Char} {s : CharSet} {greedy : Bool}

@[simp] theorem reach?_empty (k : Follow) : empty.reach? k = k := by
  funext c ks
  cases h : k c ks <;> simp [reach?, outcomes, h]

@[simp] theorem reach?_look (l : Look) :
    (look l).reach? k c ks = if l.holds c.before c.rest.head? then k c ks else none := by
  rw [reach?, outcomes]
  split
  · cases h : k c ks <;> simp [h]
  · rfl

@[simp] theorem reach?_set_nil : (set s).reach? k ⟨o, b, []⟩ ks = none := rfl

@[simp] theorem reach?_set_cons : (set s).reach? k ⟨o, b, x :: v⟩ ks =
    if s.contains x then k ⟨o + 1, some x, v⟩ ks else none := by
  simp only [reach?, outcomes]
  split
  · cases h : k ⟨o + 1, some x, v⟩ ks <;> simp [Cursor.next, h]
  · rfl

@[simp] theorem reach?_char_nil : (char x).reach? k ⟨o, b, []⟩ ks = none := rfl

@[simp] theorem reach?_char_cons : (char x).reach? k ⟨o, b, y :: v⟩ ks =
    if y = x then k ⟨o + 1, some y, v⟩ ks else none := by
  simp [char, CharSet.contains_singleton]

@[simp] theorem reach?_group (name : String) (r : Regex) :
    (group name r).reach? k c ks =
      r.reach? (fun d ks => k d (⟨name, c, d.offset⟩ :: ks)) c ks := by
  simp only [reach?, outcomes, List.findSome?_map]
  rfl

theorem findSome?_flatMap {α β γ : Type} (l : List α) (f : α → List β) (g : β → Option γ) :
    (l.flatMap f).findSome? g = l.findSome? fun x => (f x).findSome? g := by
  induction l with
  | nil => rfl
  | cons x l ih =>
    rw [List.flatMap_cons, List.findSome?_append, ih, List.findSome?_cons]
    cases (f x).findSome? g <;> rfl

theorem reach?_seq (first second : Regex) :
    (seq first second).reach? k = first.reach? (second.reach? k) := by
  funext c ks
  exact findSome?_flatMap (first.outcomes c ks) _ _

@[simp] theorem reach?_alt (first second : Regex) :
    (alt first second).reach? k c ks = (first.reach? k c ks).or (second.reach? k c ks) := by
  simp only [reach?, outcomes, List.findSome?_append]

theorem reach?_opt (r : Regex) : (opt r).reach? k c ks = (r.reach? k c ks).or (k c ks) := by
  rw [opt, reach?_alt, reach?_empty]

@[simp] theorem reachAll?_nil : reachAll? [] k = k := rfl
@[simp] theorem reachAll?_cons (r : Regex) (rs : List Regex) :
    reachAll? (r :: rs) k = r.reach? (reachAll? rs k) := rfl

theorem reachAll?_append (rs rs' : List Regex) :
    reachAll? (rs ++ rs') k = reachAll? rs (reachAll? rs' k) := by
  induction rs with
  | nil => rfl
  | cons r rs ih => rw [List.cons_append, reachAll?_cons, ih, reachAll?_cons]

theorem reach?_concat (rs : List Regex) : (concat rs).reach? k = reachAll? rs k := by
  induction rs with
  | nil => exact reach?_empty k
  | cons r rs ih =>
    cases rs with
    | nil => rfl
    | cons r' rs =>
      change (seq r (concat (r' :: rs))).reach? k = _
      rw [reach?_seq, ih, ← reachAll?_cons]

@[simp] theorem choice_singleton (r : Regex) : choice [r] = r := rfl

theorem outcomes_star (r : Regex) :
    (star r).outcomes c ks = (plus true r).outcomes c ks ++ [(c, ks)] := rfl
theorem outcomes_lazyStar (r : Regex) :
    (lazyStar r).outcomes c ks = (c, ks) :: (plus false r).outcomes c ks := rfl

theorem outcomes_plus_set : (plus greedy (set s)).outcomes ⟨o, b, x :: v⟩ ks =
    if s.contains x then laterRounds greedy (set s).outcomes ⟨o + 1, some x, v⟩ ks else [] := by
  rw [outcomes_plus]
  simp only [outcomes, Cursor.next]
  split <;> simp

theorem outcomes_star_set : (star (set s)).outcomes c ks =
    laterRounds true (set s).outcomes c ks := by
  obtain ⟨o, b, t⟩ := c
  rw [outcomes_star, laterRounds_eq (outcomes_forward (set s))]
  cases t with
  | nil => rfl
  | cons x v =>
    rw [outcomes_plus_set]
    simp only [outcomes, Cursor.next]
    split <;> simp

theorem outcomes_lazyStar_set : (lazyStar (set s)).outcomes c ks =
    laterRounds false (set s).outcomes c ks := by
  obtain ⟨o, b, t⟩ := c
  rw [outcomes_lazyStar, laterRounds_eq (outcomes_forward (set s))]
  cases t with
  | nil => rfl
  | cons x v =>
    rw [outcomes_plus_set]
    simp only [outcomes, Cursor.next]
    split <;> simp

@[simp] theorem reach?_plus_set_nil : (plus greedy (set s)).reach? k ⟨o, b, []⟩ ks = none := rfl

@[simp] theorem reach?_plus_set_cons : (plus true (set s)).reach? k ⟨o, b, x :: v⟩ ks =
    if s.contains x then (star (set s)).reach? k ⟨o + 1, some x, v⟩ ks else none := by
  rw [reach?, outcomes_plus_set]
  split
  · rw [reach?, outcomes_star_set]
  · rfl

@[simp] theorem reach?_lazyPlus_set_cons : (plus false (set s)).reach? k ⟨o, b, x :: v⟩ ks =
    if s.contains x then (lazyStar (set s)).reach? k ⟨o + 1, some x, v⟩ ks else none := by
  rw [reach?, outcomes_plus_set]
  split
  · rw [reach?, outcomes_lazyStar_set]
  · rfl

@[simp] theorem reach?_star_set_nil :
    (star (set s)).reach? k ⟨o, b, []⟩ ks = k ⟨o, b, []⟩ ks := by
  rw [star, reach?_opt, reach?_plus_set_nil, Option.none_or]

@[simp] theorem reach?_star_set_cons : (star (set s)).reach? k ⟨o, b, x :: v⟩ ks =
    if s.contains x then
      ((star (set s)).reach? k ⟨o + 1, some x, v⟩ ks).or (k ⟨o, b, x :: v⟩ ks)
    else k ⟨o, b, x :: v⟩ ks := by
  rw [star, reach?_opt, reach?_plus_set_cons]
  split
  · rfl
  · rw [Option.none_or]

@[simp] theorem reach?_lazyStar_set_nil :
    (lazyStar (set s)).reach? k ⟨o, b, []⟩ ks = k ⟨o, b, []⟩ ks := by
  cases h : k ⟨o, b, []⟩ ks <;> simp [reach?, outcomes_lazyStar, outcomes, h]

@[simp] theorem reach?_lazyStar_set_cons : (lazyStar (set s)).reach? k ⟨o, b, x :: v⟩ ks =
    (k ⟨o, b, x :: v⟩ ks).or
      (if s.contains x then (lazyStar (set s)).reach? k ⟨o + 1, some x, v⟩ ks else none) := by
  rw [reach?, outcomes_lazyStar, outcomes_plus_set, List.findSome?_cons]
  split
  · rename_i h
    rw [h, Option.some_or]
  · rename_i h
    rw [h, Option.none_or]
    split
    · rw [reach?, outcomes_lazyStar_set]
    · rfl

end Equations

/-! ## Texts that are read -/

/-- A match is found, and it is as asked. -/
def Reaches (P : Cursor → Captures → Prop) (m : Option (Cursor × Captures)) : Prop :=
  ∃ d ks, m = some (d, ks) ∧ P d ks

/-- From no place before a text is there a match. -/
def Refuses (k : Follow) (t : List Char) : Prop :=
  ∀ o b ks, k ⟨o, b, t⟩ ks = none

section Reaches

variable {P : Cursor → Captures → Prop} {k : Follow} {ks : Captures} {o : Nat} {b : Option Char}
  {x : Char} {u v : List Char} {s : CharSet} {r r' : Regex}

theorem reaches_some {d : Cursor} (h : P d ks) : Reaches P (some (d, ks)) := ⟨d, ks, rfl, h⟩

theorem isSome_of_reaches {m : Option (Cursor × Captures)} (h : Reaches P m) : m.isSome = true := by
  obtain ⟨d, ks, rfl, -⟩ := h
  rfl

theorem reaches_or {m m' : Option (Cursor × Captures)} (h : Reaches P m) :
    Reaches P (m.or m') := by
  obtain ⟨d, ks, rfl, hp⟩ := h
  exact reaches_some hp

theorem reaches_star_set (hu : ∀ x ∈ u, s.contains x = true)
    (hv : ∀ x ∈ v.head?, s.contains x = false)
    (h : Reaches P (k ⟨o + u.length, lastOf b u, v⟩ ks)) :
    Reaches P ((star (set s)).reach? k ⟨o, b, u ++ v⟩ ks) := by
  induction u generalizing o b with
  | nil =>
    cases v with
    | nil => rwa [List.append_nil, reach?_star_set_nil]
    | cons y v => rwa [List.nil_append, reach?_star_set_cons, hv y rfl, if_neg Bool.false_ne_true]
  | cons x u ih =>
    have ho : o + (x :: u).length = o + 1 + u.length := by rw [List.length_cons]; omega
    rw [ho] at h
    rw [List.cons_append, reach?_star_set_cons, if_pos (hu x List.mem_cons_self)]
    exact reaches_or (ih (fun y hy => hu y (List.mem_cons_of_mem x hy)) h)

theorem reaches_plus_set (hne : u ≠ []) (hu : ∀ x ∈ u, s.contains x = true)
    (hv : ∀ x ∈ v.head?, s.contains x = false)
    (h : Reaches P (k ⟨o + u.length, lastOf b u, v⟩ ks)) :
    Reaches P ((plus true (set s)).reach? k ⟨o, b, u ++ v⟩ ks) := by
  cases u with
  | nil => exact absurd rfl hne
  | cons x u =>
    have ho : o + (x :: u).length = o + 1 + u.length := by rw [List.length_cons]; omega
    rw [ho] at h
    rw [List.cons_append, reach?_plus_set_cons, if_pos (hu x List.mem_cons_self)]
    exact reaches_star_set (fun y hy => hu y (List.mem_cons_of_mem x hy)) hv h

/-- A lazy loop reads no further than up to the first place where what follows does not refuse. -/
theorem reaches_lazyStar_set (hu : ∀ x ∈ u, s.contains x = true)
    (hr : ∀ p x q, u = p ++ x :: q → Refuses k (x :: (q ++ v)))
    (h : Reaches P (k ⟨o + u.length, lastOf b u, v⟩ ks)) :
    Reaches P ((lazyStar (set s)).reach? k ⟨o, b, u ++ v⟩ ks) := by
  induction u generalizing o b with
  | nil =>
    cases v with
    | nil => rwa [List.append_nil, reach?_lazyStar_set_nil]
    | cons y v =>
      rw [List.nil_append, reach?_lazyStar_set_cons]
      exact reaches_or h
  | cons x u ih =>
    have ho : o + (x :: u).length = o + 1 + u.length := by rw [List.length_cons]; omega
    rw [ho] at h
    rw [List.cons_append, reach?_lazyStar_set_cons, hr [] x u rfl, Option.none_or,
      if_pos (hu x List.mem_cons_self)]
    exact ih (fun y hy => hu y (List.mem_cons_of_mem x hy))
      (fun p y q hpq => hr (x :: p) y q (by rw [hpq, List.cons_append])) h

/-- A lazy loop of one character or more reads as far as one of any number of them would. -/
theorem reaches_lazyPlus_set (hne : u ≠ []) (hu : ∀ x ∈ u, s.contains x = true)
    (hr : ∀ p x q, u = p ++ x :: q → Refuses k (x :: (q ++ v)))
    (h : Reaches P (k ⟨o + u.length, lastOf b u, v⟩ ks)) :
    Reaches P ((plus false (set s)).reach? k ⟨o, b, u ++ v⟩ ks) := by
  cases u with
  | nil => exact absurd rfl hne
  | cons x u =>
    have ho : o + (x :: u).length = o + 1 + u.length := by rw [List.length_cons]; omega
    rw [ho] at h
    rw [List.cons_append, reach?_lazyPlus_set_cons, if_pos (hu x List.mem_cons_self)]
    exact reaches_lazyStar_set (fun y hy => hu y (List.mem_cons_of_mem x hy))
      (fun p y q hpq => hr (x :: p) y q (by rw [hpq, List.cons_append])) h

theorem reaches_alt {c : Cursor} (h : Reaches P (r.reach? k c ks)) :
    Reaches P ((alt r r').reach? k c ks) := by
  rw [reach?_alt]
  exact reaches_or h

theorem reaches_alt_of_refuses (hr : Refuses (r.reach? k) v)
    (h : Reaches P (r'.reach? k ⟨o, b, v⟩ ks)) :
    Reaches P ((alt r r').reach? k ⟨o, b, v⟩ ks) := by
  rwa [reach?_alt, hr, Option.none_or]

theorem reaches_opt {c : Cursor} (h : Reaches P (r.reach? k c ks)) :
    Reaches P ((opt r).reach? k c ks) :=
  reaches_alt h

theorem reaches_opt_of_refuses (hr : Refuses (r.reach? k) v) (h : Reaches P (k ⟨o, b, v⟩ ks)) :
    Reaches P ((opt r).reach? k ⟨o, b, v⟩ ks) :=
  reaches_alt_of_refuses hr (by rwa [reach?_empty])

end Reaches

/-! ## Texts that are refused -/

section Refuses

variable {k : Follow} {x y : Char} {t v : List Char} {s : CharSet} {r r' : Regex} {greedy : Bool}

theorem refuses_look {l : Look} (h : Refuses k t) : Refuses ((look l).reach? k) t := by
  intro o b ks
  rw [reach?_look, h, ite_self]

theorem refuses_alt (h : Refuses (r.reach? k) t) (h' : Refuses (r'.reach? k) t) :
    Refuses ((alt r r').reach? k) t := by
  intro o b ks
  rw [reach?_alt, h, h', Option.or_none]

theorem refuses_opt (h : Refuses (r.reach? k) t) (h' : Refuses k t) :
    Refuses ((opt r).reach? k) t :=
  refuses_alt h (by rwa [reach?_empty])

theorem refuses_choice {rs : List Regex} (h : ∀ r ∈ rs, Refuses (r.reach? k) t) :
    Refuses ((choice rs).reach? k) t := by
  induction rs with
  | nil =>
    intro o b ks
    cases t <;> rfl
  | cons r rs ih =>
    obtain ⟨hr, hrs⟩ := List.forall_mem_cons.mp h
    cases rs with
    | nil => exact hr
    | cons r' rs => exact refuses_alt hr (ih hrs)

theorem refuses_set (h : ∀ x ∈ t.head?, s.contains x = false) : Refuses ((set s).reach? k) t := by
  intro o b ks
  cases t with
  | nil => rfl
  | cons x v => rw [reach?_set_cons, h x rfl, if_neg Bool.false_ne_true]

theorem refuses_char (h : t.head? ≠ some x) : Refuses ((char x).reach? k) t := by
  refine refuses_set fun y hy => ?_
  rw [CharSet.contains_singleton, beq_eq_false_iff_ne]
  rintro rfl
  exact h hy

theorem refuses_star_set
    (h : ∀ u v, t = u ++ v → (∀ x ∈ u, s.contains x = true) → Refuses k v) :
    Refuses ((star (set s)).reach? k) t := by
  intro o b ks
  induction t generalizing o b with
  | nil => rw [reach?_star_set_nil, h [] [] rfl (by simp)]
  | cons x t ih =>
    have hk : k ⟨o, b, x :: t⟩ ks = none := h [] (x :: t) rfl (by simp) o b ks
    rw [reach?_star_set_cons, hk]
    split
    · rename_i hx
      rw [Option.or_none]
      refine ih (fun u v ht hu => h (x :: u) v (by rw [ht, List.cons_append]) ?_) _ _
      intro y hy
      rcases List.mem_cons.mp hy with rfl | hy
      · exact hx
      · exact hu y hy
    · rfl

theorem refuses_plus_set
    (h : ∀ x u v, t = x :: (u ++ v) → (∀ y ∈ x :: u, s.contains y = true) → Refuses k v) :
    Refuses ((plus true (set s)).reach? k) t := by
  intro o b ks
  cases t with
  | nil => rfl
  | cons x t =>
    rw [reach?_plus_set_cons]
    split
    · rename_i hx
      refine refuses_star_set (fun u v ht hu => h x u v (by rw [ht]) ?_) _ _ _
      intro y hy
      rcases List.mem_cons.mp hy with rfl | hy
      · exact hx
      · exact hu y hy
    · rfl

theorem refuses_plus_set_of_head (h : ∀ x ∈ t.head?, s.contains x = false) :
    Refuses ((plus true (set s)).reach? k) t := by
  refine refuses_plus_set fun x u v ht hu => ?_
  rw [ht] at h
  exact absurd (hu x List.mem_cons_self) (by rw [h x rfl]; exact Bool.false_ne_true)

/-- A loop over a body that is refused ends before its first round. -/
theorem reach?_star_of_refuses (h : ∀ k, Refuses (r.reach? k) t) (o : Nat) (b : Option Char)
    (ks : Captures) : (star r).reach? k ⟨o, b, t⟩ ks = k ⟨o, b, t⟩ ks := by
  have hn : r.outcomes ⟨o, b, t⟩ ks = [] := by
    refine List.eq_nil_iff_forall_not_mem.mpr fun p hp => ?_
    have := List.findSome?_eq_none_iff.mp (h (fun d ks => some (d, ks)) o b ks) p hp
    cases this
  rw [reach?, outcomes_star, outcomes_plus, hn]
  cases hk : k ⟨o, b, t⟩ ks <;> simp [hk]

end Refuses

end CodeOutline.Regex
