import CodeOutline.Proofs.FirstError
import CodeOutline.Proofs.Registry.Overlay
import CodeOutline.Proofs.Text.Order

/-! # Refused settings

Settings make a registry exactly when none of their entries has a fault. Otherwise the error is that
of the first entry with one: the extensions come before the patterns, and both are in the order of
the bytes of their keys. Every entry is looked at in a fixed order too, so it has one fault at most.
-/

namespace CodeOutline

variable {family : Family} {groups alternatives : List String} {extension name pattern : String}
  {error : RegistryError} {l : Language}

theorem isExtension_iff {s : String} : isExtension s = true ↔ ∃ rest, s = "." ++ rest := by
  rw [isExtension, beq_iff_eq]
  constructor
  · intro h
    obtain ⟨rest, hs⟩ := List.head?_eq_some_iff.mp h
    exact ⟨String.ofList rest, by rw [← String.toList_inj, hs, String.toList_append]; simp⟩
  · rintro ⟨rest, rfl⟩
    rw [String.toList_append]
    rfl

theorem Language.ofName?_eq_none_iff : ofName? name = none ↔ ∀ l : Language, name ≠ l.name := by
  simp only [Option.eq_none_iff_forall_ne_some, ne_eq, ofName?_eq_some_iff]

theorem Language.eq_of_name_eq {m : Language} (h : l.name = m.name) : l = m := by
  rw [← Option.some_inj, ← ofName?_name l, h, ofName?_name]

/-! ## Faults of an entry -/

/-- The first requirement of a family that groups do not meet. -/
def Family.FirstUnmet (family : Family) (groups alternatives : List String) : Prop :=
  ∃ before after, family.requiredGroups = before ++ alternatives :: after ∧
    (∀ other ∈ before, ∃ group ∈ other, group ∈ groups) ∧ ∀ group ∈ alternatives, group ∉ groups

/-- What is wrong with an entry for an extension: first its point counts, then its language. -/
inductive ExtensionFault (extension name : String) : RegistryError → Prop
  | point : (¬ ∃ rest, extension = "." ++ rest) →
    ExtensionFault extension name (.invalidExtension extension)
  | language : (∃ rest, extension = "." ++ rest) → (∀ l : Language, name ≠ l.name) →
    ExtensionFault extension name (.unknownLanguage name)

/-- What is wrong with an entry for a pattern: first its language counts, then whether the pattern
writes an expression, and then the groups that the built-in family of the language requires. -/
inductive PatternFault (name pattern : String) : RegistryError → Prop
  | language : (∀ l : Language, name ≠ l.name) → PatternFault name pattern (.unknownLanguage name)
  | pattern (l : Language) (cause : Regex.PatternError) : name = l.name →
    Regex.compile pattern = .error cause →
      PatternFault name pattern (.rule (.invalidPattern l cause))
  | group (l : Language) (regex : Regex) (alternatives : List String) : name = l.name →
    Regex.compile pattern = .ok regex →
      (Rule.builtin l).family.FirstUnmet regex.groupNames alternatives →
        PatternFault name pattern
          (.rule (.missingGroup l (Rule.builtin l).family ("|".intercalate alternatives)))

theorem Family.unmet?_eq_some_iff :
    family.unmet? groups = some alternatives ↔ family.FirstUnmet groups alternatives := by
  simp only [unmet?, FirstUnmet, List.find?_eq_some_iff_append, Bool.not_eq_true', Bool.not_not,
    List.any_eq_false, List.any_eq_true, List.contains_iff_mem]
  constructor
  · rintro ⟨hn, before, after, hr, hb⟩
    exact ⟨before, after, hr, hb, hn⟩
  · rintro ⟨before, after, hr, hb, hn⟩
    exact ⟨hn, before, after, hr, hb⟩

theorem Rule.compile_eq_error_iff {e : RuleError} : compile l family pattern = .error e ↔
    (∃ cause, Regex.compile pattern = .error cause ∧ e = .invalidPattern l cause) ∨
      ∃ regex alternatives, Regex.compile pattern = .ok regex ∧
        family.FirstUnmet regex.groupNames alternatives ∧
          e = .missingGroup l family ("|".intercalate alternatives) := by
  rw [compile]
  cases Regex.compile pattern with
  | error cause => simp [eq_comm]
  | ok regex =>
    simp only [← Family.unmet?_eq_some_iff]
    cases hu : family.unmet? regex.groupNames with
    | none => simp [hu]
    | some alternatives => simp [hu, eq_comm]

theorem extensionFault_none_iff : (∀ error, ¬ ExtensionFault extension name error) ↔
    (∃ rest, extension = "." ++ rest) ∧ ∃ l : Language, name = l.name := by
  constructor
  · intro h
    have hpoint : ∃ rest, extension = "." ++ rest := by
      by_contra hp
      exact h _ (.point hp)
    refine ⟨hpoint, ?_⟩
    by_contra hl
    exact h _ (.language hpoint fun l hn => hl ⟨l, hn⟩)
  · rintro ⟨hpoint, l, hl⟩ error hf
    cases hf with
    | point hp => exact hp hpoint
    | language _ hn => exact hn l hl

theorem patternFault_name_iff : PatternFault l.name pattern error ↔
    ∃ e, Rule.compile l (Rule.builtin l).family pattern = .error e ∧ error = .rule e := by
  simp only [Rule.compile_eq_error_iff]
  constructor
  · intro h
    cases h with
    | language hn => exact absurd rfl (hn l)
    | pattern m cause hl hc =>
      obtain rfl := Language.eq_of_name_eq hl
      exact ⟨_, Or.inl ⟨cause, hc, rfl⟩, rfl⟩
    | group m regex alternatives hl hc hu =>
      obtain rfl := Language.eq_of_name_eq hl
      exact ⟨_, Or.inr ⟨regex, alternatives, hc, hu, rfl⟩, rfl⟩
  · rintro ⟨e, ⟨cause, hc, rfl⟩ | ⟨regex, alternatives, hc, hu, rfl⟩, rfl⟩
    · exact .pattern l cause rfl hc
    · exact .group l regex alternatives rfl hc hu

theorem patternFault_none_iff : (∀ error, ¬ PatternFault name pattern error) ↔
    ∃ l regex, name = Language.name l ∧ Regex.compile pattern = .ok regex ∧
      (Rule.builtin l).family.Met regex.groupNames := by
  constructor
  · intro h
    obtain ⟨l, rfl⟩ : ∃ l : Language, name = l.name := by
      by_contra hl
      exact h _ (.language fun l hn => hl ⟨l, hn⟩)
    cases hc : Rule.compile l (Rule.builtin l).family pattern with
    | error e => exact absurd (patternFault_name_iff.mpr ⟨e, hc, rfl⟩) (h _)
    | ok rule =>
      obtain ⟨regex, hregex, hmet, _⟩ := Rule.compile_eq_ok_iff.mp hc
      exact ⟨l, regex, rfl, hregex, hmet⟩
  · rintro ⟨l, regex, rfl, hc, hmet⟩ error hf
    obtain ⟨e, he, _⟩ := patternFault_name_iff.mp hf
    rw [Rule.compile_eq_ok_iff.mpr ⟨regex, hc, hmet, rfl⟩] at he
    cases he

namespace Registry

variable {r r' : Registry} {settings : LanguageSettings} {es : List (String × String)}

theorem addExtension_eq_error_iff :
    r.addExtension extension name = .error error ↔ ExtensionFault extension name error := by
  constructor
  · intro h
    rw [addExtension, language] at h
    cases hx : isExtension extension with
    | false =>
      rw [hx] at h
      cases h
      exact .point fun hp => Bool.false_ne_true (hx.symm.trans (isExtension_iff.mpr hp))
    | true =>
      rw [hx] at h
      cases hn : Language.ofName? name with
      | none =>
        rw [hn] at h
        cases h
        exact .language (isExtension_iff.mp hx) (Language.ofName?_eq_none_iff.mp hn)
      | some l =>
        rw [hn] at h
        cases h
  · intro h
    rw [addExtension, language]
    cases h with
    | point hp =>
      rw [Bool.eq_false_iff.mpr (mt isExtension_iff.mp hp)]
      rfl
    | language hp hn =>
      rw [isExtension_iff.mpr hp, Language.ofName?_eq_none_iff.mpr hn]
      rfl

theorem replacePattern_eq_error_iff (hr : r.KeepsFamilies) :
    r.replacePattern name pattern = .error error ↔ PatternFault name pattern error := by
  rw [replacePattern, language]
  cases hn : Language.ofName? name with
  | none =>
    have hnone := Language.ofName?_eq_none_iff.mp hn
    constructor
    · rintro ⟨⟩
      exact .language hnone
    · intro h
      cases h with
      | language _ => rfl
      | pattern l _ hl _ => exact absurd hl (hnone l)
      | group l _ _ hl _ _ => exact absurd hl (hnone l)
  | some l =>
    obtain rfl := Language.ofName?_eq_some_iff.mp hn
    rw [patternFault_name_iff]
    simp only [bind, Except.bind, hr l, Option.getD_some]
    cases hc : Rule.compile l (Rule.builtin l).family pattern with
    | ok rule => simp [pure, Except.pure]
    | error e => simp [throw, throwThe, MonadExceptOf.throw, eq_comm]

/-! ## Runs through entries -/

/-- Where a property holds, the steps fail with the faults of their entries, and else keep it. -/
structure Judges (P : Registry → Prop)
    (f : Registry → String × String → Except RegistryError Registry)
    (Fault : String → String → RegistryError → Prop) : Prop where
  keeps : ∀ r e r', P r → f r e = .ok r' → P r'
  error_iff : ∀ r e error, P r → (f r e = .error error ↔ Fault e.1 e.2 error)

section

variable {P : Registry → Prop} {f : Registry → String × String → Except RegistryError Registry}
  {Fault : String → String → RegistryError → Prop} {e : String × String}

theorem Judges.not_fault (h : Judges P f Fault) (hr : P r) (hn : f r e = .ok r')
    (error : RegistryError) : ¬ Fault e.1 e.2 error := by
  intro hfault
  rw [(h.error_iff r e error hr).mpr hfault] at hn
  cases hn

theorem Judges.foldlM_eq_ok_iff (h : Judges P f Fault) (hr : P r) :
    (∃ r', es.foldlM f r = .ok r') ↔ ∀ e ∈ es, ∀ error, ¬ Fault e.1 e.2 error := by
  induction es generalizing r with
  | nil => simp [pure, Except.pure]
  | cons e es ih =>
    rw [List.foldlM_cons, List.forall_mem_cons]
    cases hn : f r e with
    | error error =>
      have hfault := (h.error_iff r e error hr).mp hn
      constructor
      · rintro ⟨r', ⟨⟩⟩
      · intro hnone
        exact absurd hfault (hnone.1 error)
    | ok next =>
      exact (ih (h.keeps r e next hr hn)).trans (iff_and_self.mpr fun _ => h.not_fault hr hn)

theorem Judges.foldlM_eq_error_iff (h : Judges P f Fault) (hr : P r) :
    es.foldlM f r = .error error ↔ ∃ before e after, es = before ++ e :: after ∧
      (∀ x ∈ before, ∀ other, ¬ Fault x.1 x.2 other) ∧ Fault e.1 e.2 error := by
  induction es generalizing r with
  | nil => simp [pure, Except.pure]
  | cons e es ih =>
    rw [List.foldlM_cons, exists_split_cons_iff, ← h.error_iff r e error hr]
    cases hn : f r e with
    | error first =>
      have hfirst := (h.error_iff r e first hr).mp hn
      constructor
      · exact Or.inl
      · rintro (he | ⟨hnone, _⟩)
        · exact he
        · exact absurd hfirst (hnone first)
    | ok next =>
      have hnone := h.not_fault hr hn
      refine (ih (h.keeps r e next hr hn)).trans ⟨fun he => Or.inr ⟨hnone, he⟩, ?_⟩
      rintro (he | ⟨_, he⟩)
      · cases he
      · exact he

end

theorem judges_addExtension (rules : List Rule) :
    Judges (·.rules = rules) (fun r e => r.addExtension e.1 e.2) ExtensionFault where
  keeps r e r' hr h := by
    obtain ⟨_, l, _, rfl⟩ := addExtension_eq_ok_iff.mp h
    exact hr
  error_iff r e error _ := addExtension_eq_error_iff

theorem judges_replacePattern :
    Judges KeepsFamilies (fun r e => r.replacePattern e.1 e.2) PatternFault where
  keeps _ _ _ := keepsFamilies_replacePattern
  error_iff _ _ _ := replacePattern_eq_error_iff

/-! ## Settings -/

/-- The error is that of the first entry with a fault, in the order of the bytes of the keys. -/
def FirstFault (Fault : String → String → RegistryError → Prop) (d : Dictionary String)
    (error : RegistryError) : Prop :=
  ∃ e ∈ d.entries, Fault e.1 e.2 error ∧
    ∀ other ∈ d.entries, Text.bytes other.1 < Text.bytes e.1 →
      ∀ error, ¬ Fault other.1 other.2 error

theorem mem_before_iff {d : Dictionary String} {before after : List (String × String)}
    {e x : String × String} (h : d.entries = before ++ e :: after) :
    x ∈ before ↔ x ∈ d.entries ∧ Text.bytes x.1 < Text.bytes e.1 := by
  have hs := d.sorted
  rw [h, List.pairwise_append, List.pairwise_cons] at hs
  obtain ⟨_, ⟨hafter, _⟩, hbefore⟩ := hs
  rw [h, Text.bytes_lt_iff, List.mem_append, List.mem_cons]
  constructor
  · intro hx
    exact ⟨Or.inl hx, hbefore x hx e List.mem_cons_self⟩
  · rintro ⟨hx | rfl | hx, hlt⟩
    · exact hx
    · exact absurd hlt (String.lt_irrefl x.1)
    · exact absurd (String.lt_trans hlt (hafter x hx)) (String.lt_irrefl x.1)

theorem firstFault_iff {Fault : String → String → RegistryError → Prop} {d : Dictionary String} :
    FirstFault Fault d error ↔ ∃ before e after, d.entries = before ++ e :: after ∧
      (∀ x ∈ before, ∀ other, ¬ Fault x.1 x.2 other) ∧ Fault e.1 e.2 error := by
  constructor
  · rintro ⟨e, he, hfault, hnone⟩
    obtain ⟨before, after, h⟩ := List.append_of_mem he
    refine ⟨before, e, after, h, fun x hx => ?_, hfault⟩
    obtain ⟨hmem, hlt⟩ := (mem_before_iff h).mp hx
    exact hnone x hmem hlt
  · rintro ⟨before, e, after, h, hnone, hfault⟩
    refine ⟨e, h ▸ by simp, hfault, fun other ho hlt => ?_⟩
    exact hnone other ((mem_before_iff h).mpr ⟨ho, hlt⟩)

/-- Settings whose entries are all in order. -/
structure Acceptable (settings : LanguageSettings) : Prop where
  extensions : ∀ e ∈ settings.extensions.entries,
    (∃ rest, e.1 = "." ++ rest) ∧ ∃ l : Language, e.2 = l.name
  patterns : ∀ e ∈ settings.patterns.entries, ∃ l regex, e.1 = Language.name l ∧
    Regex.compile e.2 = .ok regex ∧ (Rule.builtin l).family.Met regex.groupNames

/-- Why settings make no registry. -/
inductive Refused (settings : LanguageSettings) (error : RegistryError) : Prop
  | extension : FirstFault ExtensionFault settings.extensions error → Refused settings error
  | pattern : (∀ e ∈ settings.extensions.entries, ∀ other, ¬ ExtensionFault e.1 e.2 other) →
    FirstFault PatternFault settings.patterns error → Refused settings error

theorem keepsFamilies_of_rules (h : r.rules = builtin.rules) : r.KeepsFamilies := by
  intro l
  rw [ruleFor?, h]
  exact keepsFamilies_builtin l

theorem acceptable_iff : Acceptable settings ↔
    (∀ e ∈ settings.extensions.entries, ∀ error, ¬ ExtensionFault e.1 e.2 error) ∧
      ∀ e ∈ settings.patterns.entries, ∀ error, ¬ PatternFault e.1 e.2 error := by
  simp only [extensionFault_none_iff, patternFault_none_iff]
  exact ⟨fun h => ⟨h.extensions, h.patterns⟩, fun h => ⟨h.1, h.2⟩⟩

theorem extensions_eq_ok_iff :
    (∃ middle, settings.extensions.entries.foldlM (fun r e => r.addExtension e.1 e.2) builtin =
      .ok middle) ↔ ∀ e ∈ settings.extensions.entries, ∀ error, ¬ ExtensionFault e.1 e.2 error :=
  (judges_addExtension builtin.rules).foldlM_eq_ok_iff rfl

theorem ofSettings_eq_ok_iff : (∃ r, ofSettings settings = .ok r) ↔ Acceptable settings := by
  rw [acceptable_iff, ← extensions_eq_ok_iff]
  constructor
  · rintro ⟨r, h⟩
    obtain ⟨middle, hm, h⟩ := exists_middle h
    have hr := keepsFamilies_of_rules (rules_foldlM_addExtension hm)
    exact ⟨⟨middle, hm⟩, (judges_replacePattern.foldlM_eq_ok_iff hr).mp ⟨r, h⟩⟩
  · rintro ⟨⟨middle, hm⟩, hp⟩
    have hr := keepsFamilies_of_rules (rules_foldlM_addExtension hm)
    obtain ⟨r, h⟩ := (judges_replacePattern.foldlM_eq_ok_iff hr).mpr hp
    exact ⟨r, by rw [ofSettings, hm]; exact h⟩

theorem ofSettings_eq_error_iff : ofSettings settings = .error error ↔ Refused settings error := by
  have hx : settings.extensions.entries.foldlM (fun r e => r.addExtension e.1 e.2) builtin =
      .error error ↔ FirstFault ExtensionFault settings.extensions error :=
    ((judges_addExtension builtin.rules).foldlM_eq_error_iff rfl).trans firstFault_iff.symm
  cases hm : settings.extensions.entries.foldlM (fun r e => r.addExtension e.1 e.2) builtin with
  | error first =>
    rw [ofSettings, hm]
    constructor
    · rintro ⟨⟩
      exact .extension (hx.mp hm)
    · intro h
      cases h with
      | extension hfirst =>
        rw [← hx.mpr hfirst, hm]
        rfl
      | pattern hnone _ =>
        obtain ⟨middle, hok⟩ := extensions_eq_ok_iff.mpr hnone
        rw [hm] at hok
        cases hok
  | ok middle =>
    have hnone := extensions_eq_ok_iff.mp ⟨middle, hm⟩
    have hr := keepsFamilies_of_rules (rules_foldlM_addExtension hm)
    have hp : settings.patterns.entries.foldlM (fun r e => r.replacePattern e.1 e.2) middle =
        .error error ↔ FirstFault PatternFault settings.patterns error :=
      (judges_replacePattern.foldlM_eq_error_iff hr).trans firstFault_iff.symm
    rw [ofSettings, hm]
    refine hp.trans ⟨.pattern hnone, fun h => ?_⟩
    cases h with
    | extension hfirst =>
      obtain ⟨e, he, hfault, _⟩ := hfirst
      exact absurd hfault (hnone e he error)
    | pattern _ hfirst => exact hfirst

/-- Which settings make a registry, and the error of those that do not. -/
theorem ofSettings_iff (settings : LanguageSettings) :
    ((∃ r, ofSettings settings = .ok r) ↔ Acceptable settings) ∧
      ∀ error, ofSettings settings = .error error ↔ Refused settings error :=
  ⟨ofSettings_eq_ok_iff, fun _ => ofSettings_eq_error_iff⟩

-- All three entries have a fault. The one of the smallest extension counts.
example : ofSettings ⟨.ofList [("pyi", "python"), (".v", "verilog")], .ofList [("c", "(")]⟩ =
    .error (.unknownLanguage "verilog") := by
  rfl

end Registry

end CodeOutline
