import CodeOutline.Proofs.Path
import CodeOutline.Proofs.Volume.Shape

/-! # Contents of files

Two volumes can differ in nothing but what is in the files at some places. What a path leads to is
then the same in both, unless the path leads to one of these places.
-/

namespace CodeOutline.Volume

open Node (Alike)

/-- Two volumes differ in nothing but what is in the files at some places. A file that has several
names stands at several places. -/
structure SameBut (places : List (List RawText)) (v v' : Volume) : Prop where
  shape : v.top.SameShape v'.top
  elsewhere : ∀ place, place ∉ places → Option.Rel Alike (v.top.at? place) (v'.top.at? place)
  refusal : v'.refusal = v.refusal

/-- A path below the path of a directory leads to one of these places, after following links. -/
def leadsInto (v : Volume) (cwd root : RawText) (places : List (List RawText)) (path : RawText) :
    Bool :=
  ((Path.parts path).foldl Path.join root).size ≤ pathLimit &&
    match v.follow linkLimit [] (Path.parts (Path.join cwd root) ++ Path.parts path) with
    | .ok (.found f) => places.contains f.place
    | _ => false

variable {v v' : Volume} {cwd root : RawText} {places : List (List RawText)} {names : List RawText}

theorem leadsInto_ofParts (hs : ∀ n ∈ names, Path.slash ∉ n.bytes) (hne : names ≠ []) :
    v.leadsInto cwd root places (Path.ofParts names) = true ↔
      (names.foldl Path.join root).size ≤ pathLimit ∧
        ∃ f, v.follow linkLimit [] (Path.parts (Path.join cwd root) ++ names) = .ok (.found f) ∧
          f.place ∈ places := by
  rw [leadsInto, Path.parts_ofParts hs hne, Bool.and_eq_true, decide_eq_true_iff]
  refine and_congr_right' ?_
  constructor
  · intro h
    split at h
    · rename_i f hf
      exact ⟨f, hf, List.contains_iff_mem.mp h⟩
    · cases h
  · rintro ⟨f, hf, hp⟩
    rw [hf]
    exact List.contains_iff_mem.mpr hp

/-- The same error, or nodes that are alike. -/
inductive SameTarget : Except FileError Target → Except FileError Target → Prop
  | error (e : FileError) : SameTarget (.error e) (.error e)
  | ok {n m : Node} (refusal : Option FileError) : n.Alike m →
    SameTarget (.ok ⟨n, refusal⟩) (.ok ⟨m, refusal⟩)

/-- A path that leads elsewhere leads to the same. -/
theorem SameBut.sameTarget (h : v.SameBut places v') (hs : ∀ n ∈ names, Path.slash ∉ n.bytes)
    (hne : names ≠ [])
    (hl : ¬ v.leadsInto cwd root places (Path.ofParts names) = true) :
    SameTarget (v.resolve cwd root names) (v'.resolve cwd root names) := by
  rw [leadsInto_ofParts hs hne] at hl
  have hd := follow_same h.shape linkLimit [] (Path.parts (Path.join cwd root) ++ names)
  rw [resolve, resolve]
  split
  · exact SameTarget.error .nameTooLong
  rename_i hlong
  generalize hf : v.follow linkLimit [] (Path.parts (Path.join cwd root) ++ names) = d at hd
  generalize hf' : v'.follow linkLimit [] (Path.parts (Path.join cwd root) ++ names) = d' at hd
  cases hd with
  | error e => exact SameTarget.error e
  | vacant directory name => exact SameTarget.error .missing
  | @found place n m links _ =>
    -- What stands at the place is what the path leads to, in both volumes.
    have hn : v.top.at? place = some n := at?_of_follow hf
    have hm : v'.top.at? place = some m := at?_of_follow hf'
    have ha := h.elsewhere place fun hp => hl ⟨Nat.not_lt.mp hlong, _, hf, hp⟩
    rw [hn, hm] at ha
    rw [targetOf, targetOf, target, target, h.refusal]
    cases ha with
    | some ha => exact SameTarget.ok _ ha

end CodeOutline.Volume
