import CodeOutline.Proofs.Document.Json.Layout

/-! # Values of documents

Lists and numbers of 64 bits are read back from the values that write them. An entry that is taken
out of a table, or out of a table in a table, is no longer found, and all others still are.
-/

namespace CodeOutline

open Document

/-- A number of 64 bits. -/
def IsCount (n : Nat) : Prop := n < UInt64.size

instance (n : Nat) : Decidable (IsCount n) := inferInstanceAs (Decidable (n < UInt64.size))

variable {n : Nat}

theorem asCount_integer (h : IsCount n) : Value.asCount (.integer n) = some n := by
  have hn : n < 18446744073709551616 := h
  simp [Value.asCount]
  omega

theorem fitsInteger_count (h : IsCount n) : Value.fitsInteger n = true := by
  have hn : n < 18446744073709551616 := h
  simp [Value.fitsInteger]
  omega

theorem asList_map {α : Type} {read : Value → Option α} {write : α → Value} {xs : List α}
    (h : ∀ x ∈ xs, read (write x) = some x) :
    Value.asList read (.list (xs.map write)) = some xs := by
  rw [Value.asList]
  induction xs with
  | nil => rfl
  | cons x xs ih =>
    rw [List.map_cons, List.mapM_cons, h x List.mem_cons_self,
      ih fun y hy => h y (List.mem_cons_of_mem x hy)]
    rfl

theorem asTable_map {α : Type} {read : Value → Option α} {write : α → Value}
    {es : List (String × α)} (h : ∀ e ∈ es, read (write e.2) = some e.2) :
    Value.asTable read (.table (es.map fun e => (e.1, write e.2))) = some es := by
  rw [Value.asTable]
  induction es with
  | nil => rfl
  | cons e es ih =>
    have hread : (read (write e.2)).map (e.1, ·) = some e := by
      rw [h e List.mem_cons_self]
      rfl
    simp only [List.map_cons, List.mapM_cons, hread,
      ih fun x hx => h x (List.mem_cons_of_mem e hx)]
    rfl

namespace Document.Value

variable {v : Value}

/-! ## Taking entries out -/

/-- The value without the entry at a path of names. A path that leads nowhere changes nothing. -/
def remove : List String → Value → Value
  | [], v => v
  | name :: path, .table entries =>
    .table <| match path with
      | [] => entries.filter fun e => e.1 ≠ name
      | _ :: _ => entries.map fun e => if e.1 = name then (e.1, remove path e.2) else e
  | _ :: _, v => v

theorem remove_singleton (name : String) (entries : List (String × Value)) :
    remove [name] (.table entries) = .table (entries.filter fun e => e.1 ≠ name) := rfl

theorem remove_cons_cons (name other : String) (path : List String)
    (entries : List (String × Value)) : remove (name :: other :: path) (.table entries) =
      .table (entries.map fun e => if e.1 = name then (e.1, remove (other :: path) e.2) else e) :=
  rfl

theorem under_filter (name other : String) (entries : List (String × Value)) :
    under other (entries.filter fun e => e.1 ≠ name) =
      if other = name then [] else under other entries := by
  rw [under, List.filter_filter]
  split
  · rename_i ho
    subst ho
    simp
  · rename_i ho
    have hp : ∀ e : String × Value, (decide (e.1 = other) && decide (e.1 ≠ name)) =
        decide (e.1 = other) := by
      intro e
      by_cases he : e.1 = other <;> simp [he, ho]
    simp only [hp]
    rfl

theorem under_map (f : Value → Value) (name other : String) (entries : List (String × Value)) :
    under other (entries.map fun e => if e.1 = name then (e.1, f e.2) else e) =
      if other = name then (under other entries).map f else under other entries := by
  induction entries with
  | nil => simp [under]
  | cons e entries ih =>
    simp only [under, List.map_cons, List.filter_cons] at ih ⊢
    by_cases he : e.1 = name <;> by_cases ho : other = name <;> by_cases hk : e.1 = other <;>
      simp_all

theorem Exchangeable.remove (h : v.Exchangeable) (path : List String) :
    (v.remove path).Exchangeable := by
  induction path generalizing v with
  | nil => exact h
  | cons name path ih =>
    cases h with
    | table entries he =>
      cases path with
      | nil =>
        rw [remove_singleton, exchangeable_table]
        intro e hm
        exact he e (List.mem_of_mem_filter hm)
      | cons other path =>
        rw [remove_cons_cons, exchangeable_table, List.forall_mem_map]
        intro e hm
        split
        · exact ih (he e hm)
        · exact he e hm
    | null => exact .null
    | bool b => exact .bool b
    | integer n hn => exact .integer n hn
    | text s => exact .text s
    | list items hi => exact .list items hi

end Document.Value

end CodeOutline
