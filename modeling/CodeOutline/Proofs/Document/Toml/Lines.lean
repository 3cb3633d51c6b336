import CodeOutline.Document.Toml.Parser
import CodeOutline.Proofs.Text.Lines

/-! # Reading line by line

A reader of TOML takes lines one after the other, whatever comes after them. So what a document says
is put together from what its lines say, and lines with nothing but a comment say nothing.
-/

namespace CodeOutline

namespace Document.Toml

variable {lines others : List String} {line : String} {d d' d'' : Draft}

/-- Lines that are read in full, whatever comes after them, and turn one draft into another. -/
def Reads (lines : List String) (d d' : Draft) : Prop :=
  ∃ n ≤ lines.length, ∀ fuel rest,
    parseLines (fuel + n) d ((Text.unlines lines).toList ++ rest) = parseLines fuel d' rest

theorem Reads.refl (d : Draft) : Reads [] d d :=
  ⟨0, Nat.le_refl 0, fun _ _ => rfl⟩

theorem Reads.append (h : Reads lines d d') (h' : Reads others d' d'') :
    Reads (lines ++ others) d d'' := by
  obtain ⟨n, hn, hp⟩ := h
  obtain ⟨m, hm, hp'⟩ := h'
  refine ⟨m + n, by rw [List.length_append]; omega, fun fuel rest => ?_⟩
  rw [Text.toList_unlines_append, List.append_assoc, ← Nat.add_assoc, hp, hp']

/-- What is found out for the characters of lines holds of the lines. -/
theorem reads_of_chars {cs : List Char} (hcs : (Text.unlines (line :: lines)).toList = cs)
    (h : ∀ fuel rest, parseLines (fuel + 1) d (cs ++ rest) = parseLines fuel d' rest) :
    Reads (line :: lines) d d' :=
  ⟨1, Nat.succ_le_of_lt (Nat.succ_pos _), fun fuel rest => by rw [hcs, h]⟩

/-- A line that is empty or a comment. -/
def isNote : List Char → Bool
  | [] => true
  | '#' :: comment => comment.all isPlain
  | _ => false

theorem skipComment_append {comment : List Char} (h : comment.all isPlain = true)
    (rest : List Char) : skipComment ('#' :: (comment ++ '\n' :: rest)) = '\n' :: rest := by
  rw [skipComment, List.dropWhile_append_of_pos (List.all_eq_true.mp h)]
  rfl

theorem reads_note (h : isNote line.toList = true) : Reads [line] d d := by
  refine reads_of_chars (Text.toList_unlines_cons line []) fun fuel rest => ?_
  generalize line.toList = cs at h
  unfold isNote at h
  split at h
  · rfl
  · rename_i comment
    rw [List.cons_append, List.cons_append, List.append_assoc]
    have hs : skipSpace ('#' :: (comment ++ '\n' :: rest)) = '#' :: (comment ++ '\n' :: rest) := rfl
    have hend : endLine? ('#' :: (comment ++ '\n' :: rest)) = some rest := by
      rw [endLine?, hs, skipComment_append h]
      rfl
    have hlast : '\n' :: (Text.unlines []).toList ++ rest = '\n' :: rest := rfl
    rw [hlast, parseLines, hs]
    simp only [hend]
  · cases h

theorem Reads.note (h : isNote line.toList = true) (hr : Reads lines d d') :
    Reads (line :: lines) d d' :=
  (reads_note h).append hr

/-- The reader comes to the end of the lines with the draft that they lead to. -/
theorem parse?_unlines (h : Reads lines .empty d)
    (hm : (Text.unlines lines).toList.head? ≠ some '\ufeff') :
    parse? (Text.unlines lines) = d.finish.map fun es => .table (entriesToValues es) := by
  obtain ⟨n, hn, hp⟩ := h
  obtain ⟨fuel, hfuel⟩ : ∃ fuel, (Text.unlines lines).toList.length + 1 = fuel + 1 + n :=
    ⟨(Text.unlines lines).toList.length - n, by
      have := Text.length_le_length_unlines lines
      omega⟩
  have hread := hp (fuel + 1) []
  rw [List.append_nil, ← hfuel] at hread
  have hend : parseLines (fuel + 1) d [] = some d := rfl
  rw [parse?]
  generalize (Text.unlines lines).toList = cs at hm hread
  split
  · rename_i cs
    exact absurd rfl hm
  · rw [hread, hend]
    rfl

end Document.Toml

end CodeOutline
