import CodeOutline.Regex.Search

/-! # Places of a text

Reading a text from a place on leads to a place further on. The places of a text are those that
its beginnings lead to, each at an offset of its own.
-/

namespace CodeOutline.Cursor

/-- The place after reading a text. -/
def past (c : Cursor) : List Char → Cursor
  | [] => c
  | _ :: u => c.next.past u

/-- The places before the characters of a text that is read. -/
def along (c : Cursor) : List Char → List Cursor
  | [] => []
  | _ :: u => c :: c.next.along u

/-- The places from a place on, the end of the text included. -/
def onward (c : Cursor) : List Cursor :=
  c.along c.rest ++ [c.past c.rest]

variable {c d e : Cursor} {x : Char} {u v w : List Char}

theorem next_eq (h : c.rest = x :: u) : c.next = ⟨c.offset + 1, some x, u⟩ := by
  simp [next, h]

@[simp] theorem past_nil (c : Cursor) : c.past [] = c := rfl
@[simp] theorem past_cons (c : Cursor) (x : Char) (u : List Char) :
    c.past (x :: u) = c.next.past u := rfl

theorem past_append (c : Cursor) (u v : List Char) : c.past (u ++ v) = (c.past u).past v := by
  induction u generalizing c with
  | nil => rfl
  | cons x u ih => exact ih c.next

theorem along_append (c : Cursor) (u v : List Char) :
    c.along (u ++ v) = c.along u ++ (c.past u).along v := by
  induction u generalizing c with
  | nil => rfl
  | cons x u ih => simp [along, ih]

theorem rest_next (h : c.rest = x :: u) : c.next.rest = u := by simp [next_eq h]
theorem offset_next (h : c.rest = x :: u) : c.next.offset = c.offset + 1 := by simp [next_eq h]

theorem rest_past (h : c.rest = u ++ v) : (c.past u).rest = v := by
  induction u generalizing c with
  | nil => exact h
  | cons x u ih => exact ih (rest_next h)

theorem offset_past (h : c.rest = u ++ v) : (c.past u).offset = c.offset + u.length := by
  induction u generalizing c with
  | nil => rfl
  | cons x u ih =>
    rw [past_cons, ih (rest_next h), offset_next h, List.length_cons]
    omega

theorem before_past (h : c.rest = (u ++ [x]) ++ v) : (c.past (u ++ [x])).before = some x := by
  have hr : (c.past u).rest = x :: v := rest_past (by simpa using h)
  rw [past_append, past_cons, past_nil, next_eq hr]

theorem onward_of_nil (h : c.rest = []) : c.onward = [c] := by
  simp [onward, h, along]

theorem onward_of_cons (h : c.rest = x :: u) : c.onward = c :: c.next.onward := by
  simp [onward, h, along, rest_next h]

theorem onward_append (h : c.rest = u ++ v) : c.onward = c.along u ++ (c.past u).onward := by
  rw [onward, onward, rest_past h, h, along_append, past_append, List.append_assoc]

theorem mem_along : d ∈ c.along u ↔ ∃ v x w, u = v ++ x :: w ∧ d = c.past v := by
  induction u generalizing c with
  | nil => simp [along]
  | cons y u ih =>
    rw [along, List.mem_cons, ih]
    constructor
    · rintro (rfl | ⟨v, x, w, rfl, rfl⟩)
      · exact ⟨[], y, u, rfl, rfl⟩
      · exact ⟨y :: v, x, w, rfl, rfl⟩
    · rintro ⟨v, x, w, hu, rfl⟩
      cases v with
      | nil => exact Or.inl rfl
      | cons z v =>
        obtain ⟨rfl, rfl⟩ := List.cons.inj hu
        exact Or.inr ⟨v, x, w, rfl, rfl⟩

theorem mem_onward : d ∈ c.onward ↔ ∃ u v, c.rest = u ++ v ∧ d = c.past u := by
  rw [onward, List.mem_append, List.mem_singleton, mem_along]
  constructor
  · rintro (⟨u, x, v, h, rfl⟩ | rfl)
    · exact ⟨u, x :: v, h, rfl⟩
    · exact ⟨c.rest, [], by simp, rfl⟩
  · rintro ⟨u, v, h, rfl⟩
    cases v with
    | nil => exact Or.inr (by rw [h, List.append_nil])
    | cons x v => exact Or.inl ⟨u, x, v, h, rfl⟩

theorem self_mem_onward (c : Cursor) : c ∈ c.onward :=
  mem_onward.mpr ⟨[], c.rest, rfl, rfl⟩

theorem next_mem_onward (h : c.rest = x :: u) : c.next ∈ c.onward :=
  mem_onward.mpr ⟨[x], u, h, rfl⟩

theorem mem_onward_trans (hd : d ∈ c.onward) (he : e ∈ d.onward) : e ∈ c.onward := by
  obtain ⟨u, v, hu, rfl⟩ := mem_onward.mp hd
  obtain ⟨w, v', hw, rfl⟩ := mem_onward.mp he
  rw [rest_past hu] at hw
  exact mem_onward.mpr ⟨u ++ w, v', by rw [hu, hw, List.append_assoc], (past_append c u w).symm⟩

theorem offset_le_of_mem_onward (h : d ∈ c.onward) : c.offset ≤ d.offset := by
  obtain ⟨u, v, hu, rfl⟩ := mem_onward.mp h
  rw [offset_past hu]
  omega

theorem eq_of_mem_onward (h : d ∈ c.onward) (he : d.offset = c.offset) : d = c := by
  obtain ⟨u, v, hu, rfl⟩ := mem_onward.mp h
  rw [offset_past hu] at he
  have hn : u = [] := List.eq_nil_of_length_eq_zero (by omega)
  rw [hn, past_nil]

/-- Offsets count characters: on the way through a text their sum with what is left stays. -/
theorem offset_add_length_of_mem_onward (h : d ∈ c.onward) :
    d.offset + d.rest.length = c.offset + c.rest.length := by
  obtain ⟨u, v, hu, rfl⟩ := mem_onward.mp h
  rw [offset_past hu, rest_past hu, hu, List.length_append]
  omega

theorem length_rest_lt (h : d ∈ c.onward) (hne : d.offset ≠ c.offset) :
    d.rest.length < c.rest.length := by
  have hle := offset_le_of_mem_onward h
  have hsum := offset_add_length_of_mem_onward h
  omega

theorem length_along (c : Cursor) (u : List Char) : (c.along u).length = u.length := by
  induction u generalizing c with
  | nil => rfl
  | cons x u ih => simp [along, ih]

theorem length_onward (c : Cursor) : c.onward.length = c.rest.length + 1 := by
  simp [onward, length_along]

theorem getElem?_reverse_onward (h : d ∈ c.onward) : c.onward.reverse[d.rest.length]? = some d := by
  obtain ⟨u, v, hu, rfl⟩ := mem_onward.mp h
  have hr := rest_past hu
  rw [onward_append hu, List.reverse_append,
    List.getElem?_append_left (by simp [length_onward])]
  cases hv : (c.past u).rest with
  | nil => simp [onward_of_nil hv]
  | cons x w =>
    have hlen : (c.past u).next.onward.length = w.length + 1 := by
      rw [length_onward, rest_next hv]
    rw [onward_of_cons hv, List.reverse_cons,
      List.getElem?_append_right (by simp [hlen])]
    simp [hlen]

theorem placesFrom_eq (done : List Cursor) (c : Cursor) (u : List Char) :
    placesFrom done c u = done.reverse ++ (c.along u ++ [c.past u]) := by
  induction u generalizing done c with
  | nil => simp [placesFrom, along]
  | cons x u ih => simp [placesFrom, along, ih]

theorem places_eq (text : List Char) : places text = (start text).onward :=
  placesFrom_eq [] (start text) text

end CodeOutline.Cursor
