import CodeOutline.Proofs.Rule.Lexical
import CodeOutline.Proofs.Text.Words

/-! # Normal signatures

A signature is normal when it has a name and collapsing changes none of its parts. Whatever the
pattern of a rule, its signatures have collapsed arguments and results and trimmed names. So only
blanks inside of a name can keep one from being normal, and the built-in rules capture none.
-/

namespace CodeOutline

namespace Signature

/-- The name is trimmed and not empty, and the other parts are collapsed. -/
structure IsTidy (s : Signature) : Prop where
  name_ne : s.name ≠ ""
  name : Text.IsTrimmed s.name.toList
  arguments : Text.collapse s.arguments = s.arguments
  result : Text.collapse s.result = s.result

/-- There is a name, and collapsing changes no part. -/
structure IsNormal (s : Signature) : Prop where
  name_ne : s.name ≠ ""
  name : Text.collapse s.name = s.name
  arguments : Text.collapse s.arguments = s.arguments
  result : Text.collapse s.result = s.result

variable {s : Signature} {name arguments result : String}

theorem isTidy_of_ofTexts? (h : ofTexts? name arguments result = some s) : s.IsTidy := by
  obtain ⟨hne, rfl⟩ := ofTexts?_eq_some_iff.mp h
  constructor
  · exact hne
  · simpa [Text.trim] using Text.isTrimmed_trimChars name.toList
  · exact Text.collapse_collapse arguments
  · exact Text.collapse_collapse result

theorem IsTidy.isNormal_iff (h : s.IsTidy) : s.IsNormal ↔ Text.IsSpaced s.name.toList := by
  have hname : Text.collapse s.name = s.name ↔ Text.IsSpaced s.name.toList := by
    rw [Text.collapse_eq_self_iff, and_iff_right h.name]
  constructor
  · intro hs
    exact hname.mp hs.name
  · intro hs
    exact ⟨h.name_ne, hname.mpr hs, h.arguments, h.result⟩

end Signature

namespace Rule

variable {rule : Rule} {text : List Char} {s : Signature} {l : Language}

theorem isTidy_of_mem_signatures (h : s ∈ rule.signatures text) : s.IsTidy := by
  obtain ⟨m, _, hm⟩ := List.mem_filterMap.mp h
  obtain ⟨n, a, r, hr⟩ := Extraction.exists_readsFrom hm
  exact Signature.isTidy_of_ofTexts? hr.signature

theorem Builtin.lexical_of_mem_signatures (h : s ∈ (builtin l).signatures text) : Lexical l s := by
  obtain ⟨m, hm, hs⟩ := Rule.exists_match_of_mem_signatures (ensures_builtin l) h
  exact lexical_of_records hm hs

theorem Builtin.isSpaced_of_mem_signatures (h : s ∈ (builtin l).signatures text) :
    Text.IsSpaced s.name.toList := by
  have hn := (lexical_of_mem_signatures h).name.isBlank_eq
  have hne : s.name.toList ≠ [] := by
    intro he
    exact (isTidy_of_mem_signatures h).name_ne (by simpa using he)
  exact Text.IsToken.isSpaced ⟨hne, hn⟩

/-- Of the signatures that a rule finds, whatever its pattern, those are normal whose names have
single spaces only. Of a built-in rule these are all. -/
theorem extract_normal_iff (rule : Rule) (content : String) (h : '\x00' ∉ content.toList) :
    ∃ signatures, rule.extract content = .ok signatures ∧
      (∀ s ∈ signatures, s.IsTidy ∧ (s.IsNormal ↔ Text.IsSpaced s.name.toList)) ∧
      ∀ l, rule = builtin l → ∀ s ∈ signatures, s.IsNormal := by
  refine ⟨_, Rule.extract_eq_ok h, ?_, ?_⟩
  · intro s hs
    have ht := isTidy_of_mem_signatures hs
    exact ⟨ht, ht.isNormal_iff⟩
  · rintro l rfl s hs
    rw [(isTidy_of_mem_signatures hs).isNormal_iff]
    exact Builtin.isSpaced_of_mem_signatures hs

theorem extract_normal_iff_python : '\x00' ∉ "def  f( a,\n  b ):\n".toList ∧
    (builtin .python).extract "def  f( a,\n  b ):\n" = .ok [⟨"f", "a, b", ""⟩] ∧
      Signature.IsNormal ⟨"f", "a, b", ""⟩ := by
  have hn : '\x00' ∉ "def  f( a,\n  b ):\n".toList := by decide
  have he : (builtin .python).extract "def  f( a,\n  b ):\n" =
      .ok [⟨"f", "a, b", ""⟩] := by decide +kernel
  obtain ⟨signatures, hs, -, hb⟩ := extract_normal_iff (builtin .python) _ hn
  rw [he] at hs
  cases hs
  exact ⟨hn, he, hb .python rfl _ (List.mem_singleton_self _)⟩

/-- A name with two blanks side by side is reported as it stands. -/
theorem extract_wideName : ∃ rule,
    Rule.compile .python .keyword "def (?P<name>[^(]+)\\(" = .ok rule ∧
      rule.extract "def a  b(" = .ok [⟨"a  b", "", ""⟩] ∧
        ¬ Signature.IsNormal ⟨"a  b", "", ""⟩ := by
  have hn : ¬ Signature.IsNormal ⟨"a  b", "", ""⟩ := fun h => absurd h.name (by decide)
  have hr : (Rule.compile .python .keyword "def (?P<name>[^(]+)\\(").toOption.any (fun rule =>
      (rule.extract "def a  b(").toOption == some [⟨"a  b", "", ""⟩]) = true := by
    decide +kernel
  obtain ⟨rule, hc, he⟩ := (Option.any_eq_true _ _).mp hr
  refine ⟨rule, ?_, ?_, hn⟩
  · cases hc' : Rule.compile .python .keyword "def (?P<name>[^(]+)\\(" <;>
      simp_all [Except.toOption]
  · cases he' : rule.extract "def a  b(" <;> simp_all [Except.toOption]

end Rule

end CodeOutline
