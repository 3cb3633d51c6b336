import Mathlib.Data.List.Basic

/-! # First errors

A run through a list that stops at an error stops at the first member with one: all members before
it have none, and what comes after it has no say.
-/

namespace CodeOutline

variable {α β ε : Type} {x : α} {xs : List α}

theorem exists_split_cons_iff {Passes Fails : α → Prop} :
    (∃ before y after, x :: xs = before ++ y :: after ∧ (∀ z ∈ before, Passes z) ∧ Fails y) ↔
      Fails x ∨ Passes x ∧ ∃ before y after, xs = before ++ y :: after ∧
        (∀ z ∈ before, Passes z) ∧ Fails y := by
  constructor
  · rintro ⟨before, y, after, h, hbefore, hy⟩
    cases before with
    | nil =>
      cases h
      exact Or.inl hy
    | cons z before =>
      cases h
      obtain ⟨hx, hbefore⟩ := List.forall_mem_cons.mp hbefore
      exact Or.inr ⟨hx, before, y, after, rfl, hbefore, hy⟩
  · rintro (hx | ⟨hx, before, y, after, rfl, hbefore, hy⟩)
    · exact ⟨[], x, xs, rfl, List.forall_mem_nil _, hx⟩
    · exact ⟨x :: before, y, after, rfl, List.forall_mem_cons.mpr ⟨hx, hbefore⟩, hy⟩

theorem mapM_eq_error_iff {f : α → Except ε β} {error : ε} :
    xs.mapM f = .error error ↔ ∃ before x after, xs = before ++ x :: after ∧
      (∀ y ∈ before, ∃ z, f y = .ok z) ∧ f x = .error error := by
  induction xs with
  | nil => simp [pure, Except.pure]
  | cons x xs ih =>
    rw [List.mapM_cons, exists_split_cons_iff, ← ih]
    cases hx : f x with
    | error first => simp [bind, Except.bind]
    | ok z => cases xs.mapM f <;> simp [bind, Except.bind, pure, Except.pure]

/-! ## Readings of texts -/

/-- The first text that a reading of texts refuses, and its error. -/
def FirstRefused (read : String → Except ε β) (texts : List String) (text : String) (error : ε) :
    Prop :=
  ∃ before after, texts = before ++ text :: after ∧ (∀ other ∈ before, ∃ y, read other = .ok y) ∧
    read text = .error error

section

variable {read : String → Except ε β} {texts : List String} {text : String} {error : ε}

theorem findSome?_eq_some_iff_firstRefused {find : String → Option (String × ε)}
    (hok : ∀ text y, read text = .ok y → find text = none)
    (herror : ∀ text error, read text = .error error → find text = some (text, error)) :
    texts.findSome? find = some (text, error) ↔ FirstRefused read texts text error := by
  have hnone : ∀ other, find other = none ↔ ∃ y, read other = .ok y := by
    intro other
    cases hr : read other with
    | ok y => simp [hok other y hr]
    | error error => simp [herror other error hr]
  have hsome : ∀ other, find other = some (text, error) ↔
      other = text ∧ read other = .error error := by
    intro other
    cases hr : read other with
    | ok y => simp [hok other y hr]
    | error error => simp [herror other error hr]
  simp only [List.findSome?_eq_some_iff, hnone, hsome, FirstRefused]
  constructor
  · rintro ⟨before, _, after, ht, ⟨rfl, he⟩, hbefore⟩
    exact ⟨before, after, ht, hbefore, he⟩
  · rintro ⟨before, after, ht, hbefore, he⟩
    exact ⟨before, text, after, ht, ⟨rfl, he⟩, hbefore⟩

/-- A run of a reading through texts fails at the first that is refused. -/
theorem mapM_eq_error_iff_firstRefused {ε' : Type} {run : String → Except ε' β}
    {wrap : String → ε → ε'} {failure : ε'}
    (hok : ∀ text y, read text = .ok y → run text = .ok y)
    (herror : ∀ text error, read text = .error error → run text = .error (wrap text error)) :
    texts.mapM run = .error failure ↔
      ∃ text error, FirstRefused read texts text error ∧ failure = wrap text error := by
  have hpasses : ∀ other, (∃ y, run other = .ok y) ↔ ∃ y, read other = .ok y := by
    intro other
    cases hr : read other with
    | ok y => simp [hok other y hr]
    | error error => simp [herror other error hr]
  have hfails : ∀ other, run other = .error failure ↔
      ∃ error, read other = .error error ∧ failure = wrap other error := by
    intro other
    cases hr : read other with
    | ok y => simp [hok other y hr]
    | error error => simp [herror other error hr, eq_comm]
  simp only [mapM_eq_error_iff, hpasses, hfails, FirstRefused]
  constructor
  · rintro ⟨before, text, after, ht, hbefore, error, he, hw⟩
    exact ⟨text, error, ⟨before, after, ht, hbefore, he⟩, hw⟩
  · rintro ⟨text, error, ⟨before, after, ht, hbefore, he⟩, hw⟩
    exact ⟨before, text, after, ht, hbefore, error, he, hw⟩

end

end CodeOutline
