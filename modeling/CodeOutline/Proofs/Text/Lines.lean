import Mathlib.Data.List.Basic
import CodeOutline.Text.Lines

/-! # Texts made of lines

A text made of lines is one line end after the other, each at the end of a line. So reading it by its
line ends gives the lines back, when none of them has a line end of its own.
-/

namespace CodeOutline.Text

variable {line : String} {lines others : List String}

theorem toList_unlines_cons (line : String) (lines : List String) :
    (unlines (line :: lines)).toList = line.toList ++ '\n' :: (unlines lines).toList := by
  rw [unlines, List.map_cons, String.join_cons, String.toList_append, String.toList_append,
    List.append_assoc]
  rfl

theorem toList_unlines (lines : List String) :
    (unlines lines).toList = (lines.map String.toList).flatMap (· ++ ['\n']) := by
  induction lines with
  | nil => rfl
  | cons line lines ih => simp [toList_unlines_cons, ih]

theorem unlines_ne_empty (line : String) (lines : List String) : unlines (line :: lines) ≠ "" := by
  intro he
  have hl := congrArg String.toList he
  rw [toList_unlines_cons] at hl
  simp at hl

theorem toList_unlines_append (lines others : List String) :
    (unlines (lines ++ others)).toList = (unlines lines).toList ++ (unlines others).toList := by
  rw [unlines, List.map_append, String.join_append, String.toList_append]
  rfl

theorem length_le_length_unlines (lines : List String) :
    lines.length ≤ (unlines lines).toList.length := by
  induction lines with
  | nil => exact Nat.zero_le _
  | cons line lines ih =>
    rw [toList_unlines_cons, List.length_append, List.length_cons, List.length_cons]
    omega

/-- Whatever comes after them, lines are read back one by one. -/
theorem splitOn_unlines_append (h : ∀ line ∈ lines, '\n' ∉ line.toList) (others : List String) :
    (unlines (lines ++ others)).toList.splitOn '\n' =
      lines.map String.toList ++ (unlines others).toList.splitOn '\n' := by
  induction lines with
  | nil => rfl
  | cons line lines ih =>
    rw [List.forall_mem_cons] at h
    rw [List.cons_append, toList_unlines_cons, List.splitOn_append_cons_self_of_not_mem h.1,
      ih h.2, List.map_cons, List.cons_append]

end CodeOutline.Text
