import CodeOutline.Extraction
import CodeOutline.Proofs.Regex.Spelling
import CodeOutline.Proofs.Signature

/-! # Readings of matches

Every family reads a signature from the texts of a few groups of a match, and a rule has no other
signatures. So what is known of all captures of an expression is known of the signatures that a rule
finds with it.
-/

namespace CodeOutline

open Regex

namespace Extraction

/-- The groups that names are read from. -/
def nameGroups : List String := ["name", "fn_name", "arrow_name", "method_name"]

/-- The groups that arguments are read from. -/
def argumentsGroups : List String := ["args", "fn_args", "arrow_args", "method_args"]

/-- The groups that results are read from. -/
def resultGroups : List String := ["ret", "fn_ret", "arrow_ret"]

variable {family : Family} {m : Match} {s : Signature} {group : String}
  {Q : String → List Char → Prop}

/-- A signature is read from a group for the name, one for the arguments, and one for the result or
none. Where the result comes first it is never missing. -/
structure ReadsFrom (family : Family) (m : Match) (s : Signature) (n a r : String) : Prop where
  name : ∃ group ∈ nameGroups, groupText m group = n
  arguments : ∃ group ∈ argumentsGroups, groupText m group = a
  result : r = "" ∨ ∃ group ∈ resultGroups, groupText m group = r
  stated : family = .returnTypeFirst → r ≠ ""
  signature : Signature.ofTexts? n a r = some s

theorem readsFrom_keyword (h : keywordSignature? m = some s) (hf : family ≠ .returnTypeFirst) :
    ∃ n a r, ReadsFrom family m s n a r :=
  ⟨_, _, _, ⟨"name", by decide, rfl⟩, ⟨"args", by decide, rfl⟩, Or.inr ⟨"ret", by decide, rfl⟩,
    fun he => absurd he hf, h⟩

theorem readsFrom_returnTypeFirst (h : returnTypeFirstSignature? m = some s) :
    ∃ n a r, ReadsFrom family m s n a r := by
  rw [returnTypeFirstSignature?] at h
  split at h
  · cases h
  · rename_i hb
    refine ⟨_, _, _, ⟨"name", by decide, rfl⟩, ⟨"args", by decide, rfl⟩,
      Or.inr ⟨"ret", by decide, rfl⟩, fun _ he => ?_, h⟩
    rw [he] at hb
    exact hb rfl

theorem readsFrom_modifier (h : modifierSignature? m = some s) (hf : family ≠ .returnTypeFirst) :
    ∃ n a r, ReadsFrom family m s n a r := by
  rw [modifierSignature?] at h
  split at h
  · cases h
  · exact ⟨_, _, _, ⟨"name", by decide, rfl⟩, ⟨"args", by decide, rfl⟩, Or.inl rfl,
      fun he => absurd he hf, h⟩

theorem readsFrom_arrow (h : arrowSignature? m = some s) (hf : family ≠ .returnTypeFirst) :
    ∃ n a r, ReadsFrom family m s n a r := by
  have hread {n a r : String}
      (hc : (if isControlKeyword n then none else Signature.ofTexts? n a r) = some s)
      (hn : ∃ group ∈ nameGroups, groupText m group = n)
      (ha : ∃ group ∈ argumentsGroups, groupText m group = a)
      (hr : r = "" ∨ ∃ group ∈ resultGroups, groupText m group = r) :
      ∃ n a r, ReadsFrom family m s n a r := by
    split at hc
    · cases hc
    · exact ⟨n, a, r, hn, ha, hr, fun he => absurd he hf, hc⟩
  rw [arrowSignature?] at h
  by_cases hfn : hasGroup m "fn_name" = true
  · rw [if_pos hfn] at h
    exact hread h ⟨"fn_name", by decide, rfl⟩ ⟨"fn_args", by decide, rfl⟩
      (Or.inr ⟨"fn_ret", by decide, rfl⟩)
  rw [if_neg hfn] at h
  by_cases har : hasGroup m "arrow_name" = true
  · rw [if_pos har] at h
    exact hread h ⟨"arrow_name", by decide, rfl⟩ ⟨"arrow_args", by decide, rfl⟩
      (Or.inr ⟨"arrow_ret", by decide, rfl⟩)
  rw [if_neg har] at h
  exact hread h ⟨"method_name", by decide, rfl⟩ ⟨"method_args", by decide, rfl⟩ (Or.inl rfl)

theorem exists_readsFrom (h : signature? family m = some s) :
    ∃ n a r, ReadsFrom family m s n a r := by
  cases family with
  | keyword => exact readsFrom_keyword h (by decide)
  | colonAnnotated => exact readsFrom_keyword h (by decide)
  | returnTypeFirst => exact readsFrom_returnTypeFirst h
  | arrow => exact readsFrom_arrow h (by decide)
  | modifier => exact readsFrom_modifier h (by decide)

theorem groupText_of_records (h : Records Q m.captures) (hne : groupText m group ≠ "") :
    Q group (groupText m group).toList := by
  rw [groupText, Match.group?] at hne ⊢
  cases hf : m.captures.find? group with
  | none =>
    rw [hf] at hne
    exact absurd rfl hne
  | some κ =>
    have hn : κ.name = group := by simpa using List.find?_some hf
    rw [Option.map_some, Option.getD_some, String.toList_ofList, ← hn]
    exact h κ (List.mem_of_find?_eq_some hf)

end Extraction

/-- A signature that a rule finds is read from captures that its expression ensures. -/
theorem Rule.exists_match_of_mem_signatures {rule : Rule} {text : List Char} {s : Signature}
    {Q : String → List Char → Prop} (hq : Ensures Q (rule.regex.reach? accept))
    (h : s ∈ rule.signatures text) :
    ∃ m : Match, Records Q m.captures ∧ Extraction.signature? rule.family m = some s := by
  obtain ⟨m, hm, hs⟩ := List.mem_filterMap.mp h
  obtain ⟨d, hd⟩ := preferred?_of_mem_allMatches hm
  rw [preferred?_eq] at hd
  exact ⟨m, hq _ _ _ _ Records.nil hd, hs⟩

end CodeOutline
