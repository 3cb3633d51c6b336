import Mathlib.Logic.Function.Iterate
import CodeOutline.Proofs.Path

/-! # Absolute forms of paths

A path is walked part by part from a place. A path that is joined to another one goes on from where
the first one leads, and a path of plain names leads to these names from every place. So absolute
forms are composed as paths are, and two points take away a last name.
-/

namespace CodeOutline.Path

variable {cwd p q part : RawText} {place ns : List RawText}

/-- A name that can be the part of a path which leads from a directory down. -/
structure IsPlainName (name : RawText) : Prop where
  ne_empty : name ≠ ""
  ne_point : name ≠ "."
  ne_points : name ≠ ".."
  noSlash : slash ∉ name.bytes

/-- Where a path leads from a place. An absolute path starts again at the top. -/
def walk (place : List RawText) (p : RawText) : List RawText :=
  (parts p).foldl enter (if isAbsolute p then [] else place)

/-! ## Plain names -/

theorem noSlash_of_mem_splitSlashes {u bs : List UInt8} (h : u ∈ splitSlashes bs) : slash ∉ u := by
  induction bs generalizing u with
  | nil =>
    rw [splitSlashes, List.mem_singleton] at h
    simp [h]
  | cons b bs ih =>
    unfold splitSlashes at h
    split at h
    · rcases List.mem_cons.mp h with rfl | h
      · exact List.not_mem_nil
      · exact ih h
    rename_i hb
    split at h
    · rename_i first others hs
      rw [hs] at ih
      rcases List.mem_cons.mp h with rfl | h
      · simpa [Ne.symm hb] using ih List.mem_cons_self
      · exact ih (List.mem_cons_of_mem first h)
    · simpa [List.mem_singleton.mp h] using Ne.symm hb

theorem noSlash_of_mem_parts (h : part ∈ parts p) : slash ∉ part.bytes := by
  obtain ⟨u, hu, rfl⟩ := List.mem_map.mp h
  exact noSlash_of_mem_splitSlashes hu

theorem isPlainName_of_mem_enter (hp : ∀ n ∈ place, IsPlainName n) (hs : slash ∉ part.bytes) :
    ∀ n ∈ enter place part, IsPlainName n := by
  intro n hn
  unfold enter at hn
  split at hn
  · exact hp n hn
  rename_i hidle
  split at hn
  · exact hp n (List.dropLast_subset place hn)
  rename_i hpoints
  rcases List.mem_append.mp hn with hn | hn
  · exact hp n hn
  · obtain rfl := List.mem_singleton.mp hn
    exact ⟨fun h => hidle (Or.inl h), fun h => hidle (Or.inr h), hpoints, hs⟩

theorem isPlainName_of_mem_foldl (hp : ∀ n ∈ place, IsPlainName n)
    (hs : ∀ part ∈ ns, slash ∉ part.bytes) : ∀ n ∈ ns.foldl enter place, IsPlainName n := by
  induction ns generalizing place with
  | nil => exact hp
  | cons part ns ih =>
    rw [List.forall_mem_cons] at hs
    exact ih (isPlainName_of_mem_enter hp hs.1) hs.2

theorem isPlainName_of_mem_names : ∀ n ∈ names cwd p, IsPlainName n :=
  isPlainName_of_mem_foldl (by simp) fun _ => noSlash_of_mem_parts

/-! ## Walks -/

theorem walk_nil (p : RawText) : walk [] p = (parts p).foldl enter [] := by
  simp [walk]

theorem walk_of_isAbsolute (h : isAbsolute p = true) (place : List RawText) :
    walk place p = walk [] p := by
  simp [walk, h]

theorem walk_of_not_isAbsolute (h : isAbsolute p = false) (place : List RawText) :
    walk place p = (parts p).foldl enter place := by
  simp [walk, h]

theorem isAbsolute_join_eq (hp : p ≠ "") (hq : isAbsolute q = false) :
    isAbsolute (join p q) = isAbsolute p := by
  obtain ⟨r, hr⟩ := exists_join_eq p hq
  unfold isAbsolute
  rw [hr, RawText.bytes_append, List.head?_append_of_ne_nil]
  exact fun h => hp (RawText.ext_bytes h)

theorem walk_join (place : List RawText) (p q : RawText) :
    walk place (join p q) = walk (walk place p) q := by
  cases hq : isAbsolute q with
  | true => rw [join_of_isAbsolute p hq, walk_of_isAbsolute hq, walk_of_isAbsolute hq (walk place p)]
  | false =>
    by_cases hp : p = ""
    · subst hp
      have hj : join "" q = q := by
        rw [join, hq]
        rfl
      rw [hj]
      rfl
    · obtain ⟨ps, hps, hj⟩ := exists_parts_join hp hq
      have hw : walk place p = ps.foldl enter (if isAbsolute p then [] else place) := by
        unfold walk
        rcases hps with h | h
        · rw [h]
        · rw [h, List.foldl_append]
          simp [enter]
      rw [walk, isAbsolute_join_eq hp hq, hj, List.foldl_append, ← hw, walk_of_not_isAbsolute hq]

theorem walk_ofNames (h : ∀ n ∈ ns, IsPlainName n) (place : List RawText) :
    walk place (ofNames ns) = ns := by
  have ha : isAbsolute (ofNames ns) = true := isAbsolute_cons _
  rw [walk_of_isAbsolute ha, walk_nil]
  by_cases hne : ns = []
  · subst hne
    rfl
  · rw [parts_ofNames (fun n hn => (h n hn).noSlash) hne, List.foldl_cons, enter,
      if_pos (Or.inl rfl),
      foldl_enter fun n hn => ⟨(h n hn).ne_empty, (h n hn).ne_point, (h n hn).ne_points⟩,
      List.nil_append]

theorem names_eq_walk (cwd p : RawText) : names cwd p = walk (walk [] cwd) p := by
  rw [← walk_join, walk_nil]
  rfl

theorem walk_absolute (place : List RawText) : walk place (absolute cwd p) = names cwd p :=
  walk_ofNames isPlainName_of_mem_names place

/-! ## Absolute forms -/

theorem names_absolute (cwd' : RawText) : names cwd' (absolute cwd p) = names cwd p := by
  rw [names_eq_walk, walk_absolute]

theorem names_join (cwd p q : RawText) : names cwd (join p q) = names (absolute cwd p) q := by
  rw [names_eq_walk, walk_join, ← names_eq_walk, names_eq_walk (absolute cwd p), walk_absolute]

theorem names_of_isAbsolute (h : isAbsolute q = true) (cwd cwd' : RawText) :
    names cwd q = names cwd' q := by
  rw [names_eq_walk, names_eq_walk, walk_of_isAbsolute h, walk_of_isAbsolute h (walk [] cwd')]

theorem names_join_points (cwd p : RawText) : names cwd (join p "..") = (names cwd p).dropLast := by
  rw [names_eq_walk, walk_join, ← names_eq_walk]
  rfl

/-- Two points, however many times, take away that many last names as far as there are any. -/
theorem names_join_points_iterate (cwd p : RawText) (k : Nat) :
    names cwd ((join · "..")^[k] p) = (names cwd p).take ((names cwd p).length - k) := by
  induction k with
  | zero => simp
  | succ k ih =>
    rw [Function.iterate_succ_apply', names_join_points, ih, List.dropLast_eq_take, List.take_take]
    congr 1
    simp only [List.length_take]
    omega

/-- The absolute form of a path is made of plain names, and absolute forms are composed as paths
are. -/
structure Composes (cwd p : RawText) : Prop where
  isAbsolute : isAbsolute (absolute cwd p) = true
  idempotent : ∀ cwd', absolute cwd' (absolute cwd p) = absolute cwd p
  join : ∀ q, absolute cwd (join p q) = absolute (absolute cwd p) q
  /-- An absolute path stands for itself. -/
  restart : ∀ q, Path.isAbsolute q = true →
    absolute cwd (Path.join p q) = absolute cwd q ∧
      absolute (absolute cwd p) q = absolute cwd q
  /-- The names are plain, and each two points that are added take away a last one. -/
  names : ∃ ns : List RawText, absolute cwd p = ofNames ns ∧ (∀ n ∈ ns, IsPlainName n) ∧
    ∀ k, absolute cwd ((Path.join · "..")^[k] p) = ofNames (ns.take (ns.length - k))

/-- Every path has such an absolute form in every working directory. -/
theorem absolute_composes (cwd p : RawText) : Composes cwd p where
  isAbsolute := isAbsolute_cons _
  idempotent cwd' := congrArg ofNames (names_absolute cwd')
  join q := congrArg ofNames (names_join cwd p q)
  restart q hq := by
    constructor
    · rw [join_of_isAbsolute p hq]
    · exact congrArg ofNames (names_of_isAbsolute hq _ cwd)
  names := by
    refine ⟨names cwd p, rfl, isPlainName_of_mem_names, fun k => ?_⟩
    exact congrArg ofNames (names_join_points_iterate cwd p k)

example : absolute "/work/proj" "src/.././/docs/" = "/work/proj/docs" := by decide +kernel

example : absolute "/work" "../../.." = "/" := by decide +kernel

end CodeOutline.Path
