import Mathlib.Data.List.Forall2
import CodeOutline.Proofs.Text.Lines
import CodeOutline.Report.Compact

/-! # Reports line by line

The text has a line for each signature, over files in order. A line end inside of a path or of a
part of a signature would make two lines of one, and there is nothing else that can.
-/

namespace CodeOutline.Report

/-- The signatures of all files in order, each with the path of its file. -/
def located (r : Report) : List (String × Signature) :=
  r.files.flatMap fun f => f.signatures.map (f.path.shown, ·)

/-- The line of a signature. -/
inductive IsCompactLine (path : String) (s : Signature) : String → Prop
  | bare : s.result = "" → IsCompactLine path s (path ++ ": " ++ s.name ++ "(" ++ s.arguments ++ ")")
  | arrow : s.result ≠ "" →
    IsCompactLine path s (path ++ ": " ++ s.name ++ "(" ++ s.arguments ++ ") -> " ++ s.result)

/-- The text of a report is these lines, one for each signature. -/
structure IsCompact (r : Report) (lines : List String) : Prop where
  text : r.compactText.toList = lines.flatMap fun line => line.toList ++ ['\n']
  /-- The only line ends are those after the lines. -/
  single : ∀ line ∈ lines, '\n' ∉ line.toList
  count : lines.length = r.signatureCount
  shows : List.Forall₂ (fun p line => IsCompactLine p.1 p.2 line) r.located lines

/-- Nothing that is written of a signature has a line end. -/
structure OneLine (path : String) (s : Signature) : Prop where
  path : '\n' ∉ path.toList
  name : '\n' ∉ s.name.toList
  arguments : '\n' ∉ s.arguments.toList
  result : '\n' ∉ s.result.toList

variable {r : Report} {path line : String} {lines : List String} {s : Signature}

/-! ## Lines of signatures -/

theorem compactLine_of_empty (h : s.result = "") :
    compactLine path s = path ++ ": " ++ s.name ++ "(" ++ s.arguments ++ ")" := by
  simp [compactLine, h]

theorem compactLine_of_ne (h : s.result ≠ "") :
    compactLine path s = path ++ ": " ++ s.name ++ "(" ++ s.arguments ++ ") -> " ++ s.result := by
  simp [compactLine, h, String.append_assoc]

theorem isCompactLine_iff : IsCompactLine path s line ↔ compactLine path s = line := by
  constructor
  · rintro (h | h)
    · rw [compactLine_of_empty h]
    · rw [compactLine_of_ne h]
  · rintro rfl
    by_cases h : s.result = ""
    · rw [compactLine_of_empty h]
      exact .bare h
    · rw [compactLine_of_ne h]
      exact .arrow h

theorem oneLine_iff : OneLine path s ↔ '\n' ∉ (compactLine path s).toList := by
  have ho : OneLine path s ↔ '\n' ∉ path.toList ∧ '\n' ∉ s.name.toList ∧
      '\n' ∉ s.arguments.toList ∧ '\n' ∉ s.result.toList :=
    ⟨fun ⟨hp, hn, ha, hr⟩ => ⟨hp, hn, ha, hr⟩, fun ⟨hp, hn, ha, hr⟩ => ⟨hp, hn, ha, hr⟩⟩
  by_cases h : s.result = ""
  · simp [ho, compactLine_of_empty h, h]
  · simp [ho, compactLine_of_ne h]

/-! ## Lines of reports -/

theorem compactLines_eq (r : Report) :
    r.compactLines = r.located.map fun p => compactLine p.1 p.2 := by
  simp [compactLines, located, List.map_flatMap, Function.comp_def]

theorem length_located (r : Report) : r.located.length = r.signatureCount := by
  have hf (files : List FileSummary) (n : Nat) :
      files.foldl (fun n f => n + f.signatures.length) n =
        n + (files.flatMap fun f => f.signatures.map (f.path.shown, ·)).length := by
    induction files generalizing n with
    | nil => rfl
    | cons f files ih =>
      rw [List.foldl_cons, ih, List.flatMap_cons, List.length_append, List.length_map]
      omega
  rw [signatureCount, hf, Nat.zero_add, located]

theorem forall₂_isCompactLine_iff :
    List.Forall₂ (fun p line => IsCompactLine p.1 p.2 line) r.located lines ↔
      r.compactLines = lines := by
  have hm : List.Forall₂ Eq (r.located.map fun p => compactLine p.1 p.2) lines ↔
      List.Forall₂ (fun p line => compactLine p.1 p.2 = line) r.located lines :=
    List.forall₂_map_left_iff
  simp only [isCompactLine_iff, compactLines_eq, ← hm, List.forall₂_eq_eq_eq]

/-- The text is one line for each signature if and only if nothing that is written has a line end. -/
theorem isCompact_iff : r.IsCompact lines ↔
    r.compactLines = lines ∧ ∀ p ∈ r.located, OneLine p.1 p.2 := by
  simp only [oneLine_iff]
  constructor
  · rintro ⟨-, hs, -, hf⟩
    obtain rfl := forall₂_isCompactLine_iff.mp hf
    rw [compactLines_eq, List.forall_mem_map] at hs
    exact ⟨rfl, hs⟩
  · rintro ⟨rfl, ho⟩
    constructor
    · rw [compactText, Text.toList_unlines, List.flatMap_map]
    · rw [compactLines_eq, List.forall_mem_map]
      exact ho
    · rw [compactLines_eq, List.length_map, length_located]
    · exact forall₂_isCompactLine_iff.mpr rfl

end CodeOutline.Report
