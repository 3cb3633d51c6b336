import CodeOutline.Proofs.Text.NormalForm
import CodeOutline.Signature

/-! # Signatures and their parts

A signature has a trimmed name and parts in normal form, so that its own parts make it again.
-/

namespace CodeOutline.Signature

variable {name arguments result : String} {s : Signature}

/-- The parts of a signature: a name that is not empty, trimmed, and the other two collapsed. -/
theorem ofTexts?_eq_some_iff :
    ofTexts? name arguments result = some s ↔
      Text.trim name ≠ "" ∧
        s = ⟨Text.trim name, Text.collapse arguments, Text.collapse result⟩ := by
  rw [ofTexts?]
  by_cases h : Text.trim name = ""
  · simp [h]
  · rw [if_neg (by simpa using h), Option.some.injEq, eq_comm, and_iff_right h]

theorem ofTexts?_parts (h : ofTexts? name arguments result = some s) :
    ofTexts? s.name s.arguments s.result = some s := by
  obtain ⟨hne, rfl⟩ := ofTexts?_eq_some_iff.mp h
  rw [ofTexts?_eq_some_iff, Text.trim_trim, Text.collapse_collapse, Text.collapse_collapse]
  exact ⟨hne, rfl⟩

/-- Collapsing gives every text its normal form, and the parts of a signature, which are in it, make
the signature again. -/
theorem normalForm_parts : Text.Normalizes Text.collapse ∧
    ∀ name arguments result s, ofTexts? name arguments result = some s →
      ofTexts? s.name s.arguments s.result = some s :=
  ⟨Text.normalizes_collapse, fun _ _ _ _ => ofTexts?_parts⟩

theorem normalForm_parts_sample :
    Text.collapse (" a,\tb" ++ "\u2003\n" ++ "c ") = "a, b c" ∧
      ofTexts? " f\u00a0" " a,\n  b" "\t" = some ⟨"f", "a, b", ""⟩ ∧
        ofTexts? "f" "a, b" "" = some ⟨"f", "a, b", ""⟩ := by
  obtain ⟨hn, hs⟩ := normalForm_parts
  have hb : Text.Blank "\u2003\n".toList := List.all_eq_true.mp (by decide +kernel)
  have hp : ofTexts? " f\u00a0" " a,\n  b" "\t" = some ⟨"f", "a, b", ""⟩ := by decide +kernel
  have hparts := hs _ _ _ _ hp
  refine ⟨?_, hp, hparts⟩
  rw [hn.parted _ _ _ (by decide) hb]
  decide +kernel

end CodeOutline.Signature
