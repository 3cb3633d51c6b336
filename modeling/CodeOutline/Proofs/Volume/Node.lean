import Mathlib.Data.List.Basic
import CodeOutline.Volume.Basic

/-! # Trees of files

In a proper tree every directory has names that a path can have, and no name twice. What stands at
a place of it is found by any way of splitting the place, and stands there only once.
-/

namespace CodeOutline

/-- A name that a path can have. -/
structure ProperName (name : RawText) : Prop where
  ne_empty : name ≠ ""
  ne_point : name ≠ "."
  ne_points : name ≠ ".."
  noSlash : Path.slash ∉ name.bytes
  short : name.size ≤ Volume.nameLimit

theorem properName_iff (name : RawText) : ProperName name ↔
    (name ≠ "" ∧ name ≠ "." ∧ name ≠ ".." ∧ Path.slash ∉ name.bytes ∧
      name.size ≤ Volume.nameLimit) :=
  ⟨fun h => ⟨h.ne_empty, h.ne_point, h.ne_points, h.noSlash, h.short⟩,
    fun ⟨he, hp, hpp, hs, hl⟩ => ⟨he, hp, hpp, hs, hl⟩⟩

instance (name : RawText) : Decidable (ProperName name) :=
  decidable_of_iff _ (properName_iff name).symm

namespace Node

/-- A tree whose names are proper and, in each directory, different from each other. -/
inductive Proper : Node → Prop
  | file (content : ByteArray) : Proper (.file content)
  | link (target : RawText) : Proper (.link target)
  | device : Proper .device
  | directory (entries : List (RawText × Node)) :
    (entries.map (·.1)).Nodup → (∀ e ∈ entries, ProperName e.1) → (∀ e ∈ entries, Proper e.2) →
      Proper (.directory entries)

/-- A property that a directory has when all that stands in it does holds of every tree. -/
theorem induct {P : Node → Prop} (file : ∀ content, P (.file content))
    (link : ∀ target, P (.link target)) (device : P .device)
    (directory : ∀ entries, (∀ e ∈ entries, P e.2) → P (.directory entries)) : ∀ n, P n
  | .file content => file content
  | .link target => link target
  | .device => device
  | .directory entries => directory entries fun e _ => induct file link device directory e.2
termination_by n => sizeOf n
decreasing_by
  rename_i he
  have h₁ := List.sizeOf_lt_of_mem he
  have h₂ : sizeOf e.2 < sizeOf e := by cases e; simp only [Prod.mk.sizeOf_spec]; omega
  simp only [Node.directory.sizeOf_spec]
  omega

variable {n m : Node} {name : RawText} {names u v : List RawText} {entries : List (RawText × Node)}

theorem at?_nil (n : Node) : n.at? [] = some n := by
  cases n <;> rfl

theorem at?_directory (entries : List (RawText × Node)) (name : RawText) (names : List RawText) :
    (directory entries).at? (name :: names) = (entries.lookup name).bind (at? names) := rfl

theorem eq_directory_of_at? (h : n.at? names = some (.directory entries)) :
    ∃ es, n = .directory es := by
  cases n with
  | directory es => exact ⟨es, rfl⟩
  | file content => cases names <;> cases h
  | link target => cases names <;> cases h
  | device => cases names <;> cases h

theorem at?_append (n : Node) (u v : List RawText) :
    n.at? (u ++ v) = (n.at? u).bind (at? v) := by
  induction u generalizing n with
  | nil => rw [at?_nil]; rfl
  | cons name u ih =>
    cases n with
    | directory entries =>
      rw [List.cons_append, at?_directory, at?_directory]
      cases entries.lookup name with
      | none => rfl
      | some child => exact ih child
    | file content => rfl
    | link target => rfl
    | device => rfl

theorem exists_directory_of_at?_append (h : n.at? (u ++ v) = some (.directory entries)) :
    ∃ es, n.at? u = some (.directory es) := by
  rw [at?_append] at h
  cases hn : n.at? u with
  | none => rw [hn] at h; cases h
  | some d =>
    rw [hn] at h
    obtain ⟨es, rfl⟩ := eq_directory_of_at? h
    exact ⟨es, rfl⟩

theorem exists_directory_of_at?_concat (h : n.at? (names ++ [name]) = some m) :
    ∃ entries, n.at? names = some (.directory entries) ∧ entries.lookup name = some m := by
  rw [at?_append] at h
  cases hn : n.at? names with
  | none => rw [hn] at h; cases h
  | some d =>
    rw [hn] at h
    cases d with
    | directory entries =>
      rw [Option.bind_some, at?_directory] at h
      cases hl : entries.lookup name with
      | none => rw [hl] at h; cases h
      | some child =>
        rw [hl, Option.bind_some, at?_nil] at h
        exact ⟨entries, rfl, by rw [hl, h]⟩
    | file content => cases h
    | link target => cases h
    | device => cases h

theorem at?_concat (h : n.at? names = some (.directory entries)) (name : RawText) :
    n.at? (names ++ [name]) = entries.lookup name := by
  rw [at?_append, h, Option.bind_some, at?_directory]
  cases entries.lookup name with
  | none => rfl
  | some child => exact at?_nil child

theorem mem_of_lookup (h : entries.lookup name = some m) : (name, m) ∈ entries := by
  obtain ⟨l₁, l₂, rfl, _⟩ := List.lookup_eq_some_iff.mp h
  simp

theorem lookup_of_mem (hn : (entries.map (·.1)).Nodup) (h : (name, m) ∈ entries) :
    entries.lookup name = some m := by
  induction entries with
  | nil => cases h
  | cons e entries ih =>
    obtain ⟨k, x⟩ := e
    rw [List.map_cons, List.nodup_cons] at hn
    rw [List.lookup_cons]
    rcases List.mem_cons.mp h with h | h
    · cases h
      simp
    · have hne : (name == k) = false :=
        beq_eq_false_iff_ne.mpr fun he => hn.1 (List.mem_map.mpr ⟨(name, m), h, he⟩)
      rw [hne]
      exact ih hn.2 h

theorem Proper.nodup (h : Proper (.directory entries)) : (entries.map (·.1)).Nodup := by
  cases h with
  | directory _ hn _ _ => exact hn

theorem Proper.properName (h : Proper (.directory entries)) (hm : (name, m) ∈ entries) :
    ProperName name := by
  cases h with
  | directory _ _ hp _ => exact hp _ hm

theorem Proper.child (h : Proper (.directory entries)) (hm : (name, m) ∈ entries) : m.Proper := by
  cases h with
  | directory _ _ _ hc => exact hc _ hm

theorem Proper.lookup_iff (h : Proper (.directory entries)) :
    entries.lookup name = some m ↔ (name, m) ∈ entries :=
  ⟨mem_of_lookup, lookup_of_mem h.nodup⟩

theorem Proper.at? (h : n.Proper) (hm : n.at? names = some m) : m.Proper := by
  induction names generalizing n with
  | nil =>
    rw [at?_nil] at hm
    cases hm
    exact h
  | cons name names ih =>
    cases n with
    | directory entries =>
      rw [at?_directory] at hm
      cases hl : entries.lookup name with
      | none => rw [hl] at hm; cases hm
      | some child =>
        rw [hl] at hm
        exact ih (h.child (mem_of_lookup hl)) hm
    | file content => cases hm
    | link target => cases hm
    | device => cases hm

theorem Proper.properName_of_at? (h : n.Proper) (hm : n.at? names = some m) :
    ∀ name ∈ names, ProperName name := by
  induction names generalizing n with
  | nil => simp
  | cons name names ih =>
    cases n with
    | directory entries =>
      rw [at?_directory] at hm
      cases hl : entries.lookup name with
      | none => rw [hl] at hm; cases hm
      | some child =>
        rw [hl] at hm
        have hmem := mem_of_lookup hl
        intro x hx
        rcases List.mem_cons.mp hx with rfl | hx
        · exact h.properName hmem
        · exact ih (h.child hmem) hm x hx
    | file content => cases hm
    | link target => cases hm
    | device => cases hm

mutual

/-- The number of names in a tree. -/
def count : Node → Nat
  | .directory entries => countAll entries
  | .file _ => 0
  | .link _ => 0
  | .device => 0

/-- The number of names in a directory and below. -/
def countAll : List (RawText × Node) → Nat
  | [] => 0
  | (_, node) :: others => node.count + 1 + countAll others

end

end Node

/-- A volume whose tree is proper. -/
def Volume.Proper (v : Volume) : Prop :=
  v.top.Proper

end CodeOutline
