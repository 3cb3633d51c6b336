import Mathlib.Data.List.Basic
import CodeOutline.Registry

/-! # Registries of settings

Whatever settings are laid over the built-in registry, it keeps one rule for every language. So the
extraction of a text fails only where the text has a NUL character.
-/

namespace CodeOutline.Registry

variable {r r' : Registry} {l : Language} {settings : LanguageSettings} {text name pattern : String}
  {signatures : List Signature}

/-- The languages of the rules. -/
def languages (r : Registry) : List Language :=
  r.rules.map (·.language)

theorem languages_builtin : builtin.languages = Language.all := by
  decide

theorem languages_addExtension {extension : String} (h : r.addExtension extension name = .ok r') :
    r'.languages = r.languages := by
  rw [addExtension] at h
  split at h
  · cases h
  cases hl : language name with
  | error e =>
    rw [hl] at h
    cases h
  | ok l =>
    rw [hl] at h
    cases h
    rfl

theorem languages_replaceRule (r : Registry) (rule : Rule) :
    (r.replaceRule rule).languages = r.languages := by
  rw [languages, replaceRule, List.map_map, languages]
  refine List.map_congr_left fun old _ => ?_
  rw [Function.comp_apply]
  split
  · rename_i h
    exact h.symm
  · rfl

theorem languages_replacePattern (h : r.replacePattern name pattern = .ok r') :
    r'.languages = r.languages := by
  rw [replacePattern] at h
  cases hl : language name with
  | error e =>
    rw [hl] at h
    cases h
  | ok l =>
    rw [hl] at h
    dsimp only [bind, Except.bind] at h
    split at h
    · cases h
      exact r.languages_replaceRule _
    · cases h

theorem foldlM_keeps {P : Registry → Prop} {f : Registry → String × String →
    Except RegistryError Registry} {es : List (String × String)}
    (hf : ∀ e ∈ es, ∀ r r', P r → f r e = .ok r' → P r') (h : es.foldlM f r = .ok r')
    (hr : P r) : P r' := by
  induction es generalizing r with
  | nil =>
    cases h
    exact hr
  | cons e es ih =>
    rw [List.foldlM_cons] at h
    cases hn : f r e with
    | error error =>
      rw [hn] at h
      cases h
    | ok next =>
      rw [hn] at h
      exact ih (fun e' he' => hf e' (List.mem_cons_of_mem e he')) h
        (hf e List.mem_cons_self r next hr hn)

/-- The settings are laid over the built-in registry in two runs, one for the extensions and then
one for the patterns. -/
theorem exists_middle (h : ofSettings settings = .ok r) :
    ∃ middle,
      settings.extensions.entries.foldlM (fun r e => r.addExtension e.1 e.2) builtin =
        .ok middle ∧
      settings.patterns.entries.foldlM (fun r e => r.replacePattern e.1 e.2) middle = .ok r := by
  rw [ofSettings] at h
  cases hm : settings.extensions.entries.foldlM (fun r e => r.addExtension e.1 e.2) builtin with
  | error error =>
    rw [hm] at h
    cases h
  | ok middle =>
    rw [hm] at h
    exact ⟨middle, rfl, h⟩

/-- Settings add no rule and take none away. -/
theorem languages_ofSettings (h : ofSettings settings = .ok r) : r.languages = Language.all := by
  obtain ⟨middle, hm, h⟩ := exists_middle h
  rw [← languages_builtin]
  refine foldlM_keeps (P := fun r => r.languages = builtin.languages)
    (fun e _ r r' hr hs => (languages_replacePattern hs).trans hr) h ?_
  exact foldlM_keeps (P := fun r => r.languages = builtin.languages)
    (fun e _ r r' hr hs => (languages_addExtension hs).trans hr) hm rfl

theorem exists_ruleFor? (h : ofSettings settings = .ok r) (l : Language) :
    ∃ rule, r.ruleFor? l = some rule := by
  have hl : l ∈ r.languages := by
    rw [languages_ofSettings h]
    cases l <;> decide
  obtain ⟨rule, hrule, hlang⟩ := List.mem_map.mp hl
  rw [ruleFor?, ← Option.isSome_iff_exists, List.find?_isSome]
  exact ⟨rule, hrule, by simpa using hlang⟩

theorem exists_rule_of_extract (h : r.extract l text = .ok signatures) :
    ∃ rule, r.ruleFor? l = some rule ∧ signatures = rule.signatures text.toList := by
  rw [extract] at h
  split at h
  · rename_i rule hr
    rw [Rule.extract] at h
    split at h
    · cases h
    · exact ⟨rule, hr, (Except.ok.inj h).symm⟩
  · cases h

theorem extract_eq (h : ofSettings settings = .ok r) (l : Language) (text : String) :
    ('\x00' ∈ text.toList ∧ r.extract l text = .error .binaryContent) ∨
      '\x00' ∉ text.toList ∧ ∃ signatures, r.extract l text = .ok signatures := by
  obtain ⟨rule, hrule⟩ := exists_ruleFor? h l
  rw [extract, hrule]
  simp only [Rule.extract, List.contains_eq_mem, decide_eq_true_eq]
  split
  · rename_i hn
    exact Or.inl ⟨hn, rfl⟩
  · rename_i hn
    exact Or.inr ⟨hn, _, rfl⟩

end CodeOutline.Registry
