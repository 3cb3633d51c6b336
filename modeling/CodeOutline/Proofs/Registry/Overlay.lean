import CodeOutline.Proofs.Dictionary
import CodeOutline.Proofs.Registry

/-! # Settings over the built-in registry

An entry of the settings decides about its own extension or language and about no other one. What
no entry names stays as it is built in. So the registry of settings has one rule for every
language, each of the built-in family, and only texts with a NUL character have no signatures.
-/

namespace CodeOutline

theorem Language.ofName?_eq_some_iff {name : String} {l : Language} :
    ofName? name = some l ↔ name = l.name := by
  constructor
  · intro h
    have := List.find?_some h
    exact (eq_of_beq this).symm
  · rintro rfl
    exact ofName?_name l

/-- The groups of a pattern meet every requirement of a family. -/
def Family.Met (family : Family) (groups : List String) : Prop :=
  ∀ alternatives ∈ family.requiredGroups, ∃ group ∈ alternatives, group ∈ groups

theorem Family.unmet?_eq_none_iff {family : Family} {groups : List String} :
    family.unmet? groups = none ↔ family.Met groups := by
  simp [unmet?, Met]

theorem Rule.compile_eq_ok_iff {l : Language} {family : Family} {pattern : String} {rule : Rule} :
    compile l family pattern = .ok rule ↔
      ∃ regex, Regex.compile pattern = .ok regex ∧ family.Met regex.groupNames ∧
        rule = ⟨l, family, pattern, regex⟩ := by
  rw [compile]
  cases Regex.compile pattern with
  | error cause => simp
  | ok regex =>
    cases hu : family.unmet? regex.groupNames with
    | none => simp [← Family.unmet?_eq_none_iff, hu, eq_comm]
    | some alternatives => simp [← Family.unmet?_eq_none_iff, hu]

theorem Rule.language_builtin (l : Language) : (builtin l).language = l := by
  cases l <;> rfl

theorem Rule.met_builtin (l : Language) :
    (builtin l).family.Met (builtin l).regex.groupNames := by
  rw [← Family.unmet?_eq_none_iff]
  cases l <;> decide

namespace Registry

variable {r r' : Registry} {l : Language} {settings : LanguageSettings} {rule : Rule}
  {extension name pattern : String} {es : List (String × String)} {e : String × String}

theorem foldlM_split {f : Registry → String × String → Except RegistryError Registry}
    {u v : List (String × String)} (h : (u ++ e :: v).foldlM f r = .ok r') :
    ∃ before after, u.foldlM f r = .ok before ∧ f before e = .ok after ∧
      v.foldlM f after = .ok r' := by
  rw [List.foldlM_append] at h
  cases hb : u.foldlM f r with
  | error error =>
    rw [hb] at h
    cases h
  | ok before =>
    rw [hb] at h
    change (e :: v).foldlM f before = .ok r' at h
    rw [List.foldlM_cons] at h
    cases ha : f before e with
    | error error =>
      rw [ha] at h
      cases h
    | ok after =>
      rw [ha] at h
      exact ⟨before, after, rfl, ha, h⟩

/-! ## Extensions -/

theorem addExtension_eq_ok_iff : r.addExtension extension name = .ok r' ↔
    isExtension extension = true ∧ ∃ l, Language.ofName? name = some l ∧
      r' = { r with extensions := r.extensions.insert extension l } := by
  rw [addExtension, language]
  cases isExtension extension <;> cases Language.ofName? name <;>
    simp [bind, Except.bind, throw, throwThe, MonadExceptOf.throw, pure, Except.pure, eq_comm]

theorem languageFor?_addExtension (h : r.addExtension extension name = .ok r') (other : String) :
    r'.languageFor? other =
      if extension = other then Language.ofName? name else r.languageFor? other := by
  obtain ⟨_, l, hl, rfl⟩ := addExtension_eq_ok_iff.mp h
  rw [languageFor?, Dictionary.find?_insert, hl]
  rfl

theorem languageFor?_foldlM_of_ne (hn : ∀ e ∈ es, e.1 ≠ extension)
    (h : es.foldlM (fun r e => r.addExtension e.1 e.2) r = .ok r') :
    r'.languageFor? extension = r.languageFor? extension := by
  refine foldlM_keeps (P := fun m => m.languageFor? extension = r.languageFor? extension)
    (fun e he m m' hm hs => ?_) h rfl
  rw [languageFor?_addExtension hs, if_neg (hn e he), hm]

theorem rules_foldlM_addExtension (h : es.foldlM (fun r e => r.addExtension e.1 e.2) r = .ok r') :
    r'.rules = r.rules := by
  refine foldlM_keeps (P := fun m => m.rules = r.rules) (fun e _ m m' hm hs => ?_) h rfl
  obtain ⟨_, l, _, rfl⟩ := addExtension_eq_ok_iff.mp hs
  exact hm

/-! ## Patterns -/

theorem ruleFor?_replaceRule (r : Registry) (rule : Rule) (l : Language) :
    (r.replaceRule rule).ruleFor? l =
      (r.ruleFor? l).map fun old => if rule.language = l then rule else old := by
  let place (old : Rule) : Rule := if old.language = rule.language then rule else old
  have hl : ∀ old, (place old).language = old.language := by
    intro old
    simp only [place]
    split
    · rename_i h
      exact h.symm
    · rfl
  have hf : ((fun x : Rule => decide (x.language = l)) ∘ place) =
      fun x => decide (x.language = l) :=
    funext fun old => by rw [Function.comp_apply, hl]
  rw [ruleFor?, replaceRule, List.find?_map, hf, ruleFor?]
  refine Option.map_congr fun old ho => ?_
  have hlang : old.language = l := by simpa using List.find?_some ho
  simp only [hlang, eq_comm]

theorem replacePattern_eq_ok_iff : r.replacePattern name pattern = .ok r' ↔
    ∃ l rule, Language.ofName? name = some l ∧
      Rule.compile l (((r.ruleFor? l).map (·.family)).getD .keyword) pattern = .ok rule ∧
        r' = r.replaceRule rule := by
  rw [replacePattern, language]
  cases Language.ofName? name with
  | none => simp [bind, Except.bind]
  | some l =>
    simp only [bind, Except.bind, Option.some.injEq]
    cases hc : Rule.compile l (((r.ruleFor? l).map (·.family)).getD .keyword) pattern with
    | error error => simp [hc, throw, throwThe, MonadExceptOf.throw]
    | ok rule =>
      simp only [pure, Except.pure, Except.ok.injEq, exists_and_left, exists_eq_left', hc]
      exact eq_comm

/-- Every language has a rule, and it is one of the built-in family. -/
def KeepsFamilies (r : Registry) : Prop :=
  ∀ l, (r.ruleFor? l).map (·.family) = some (Rule.builtin l).family

theorem keepsFamilies_builtin : builtin.KeepsFamilies := by
  intro l
  cases l <;> rfl

/-- One replacement puts the compiled pattern in the place of one rule and keeps the others. -/
theorem replacePattern_spec (hr : r.KeepsFamilies) (h : r.replacePattern name pattern = .ok r') :
    ∃ l rule, name = l.name ∧ Rule.compile l (Rule.builtin l).family pattern = .ok rule ∧
      ∀ m, r'.ruleFor? m = if l = m then some rule else r.ruleFor? m := by
  obtain ⟨l, rule, hl, hc, rfl⟩ := replacePattern_eq_ok_iff.mp h
  rw [hr l, Option.getD_some] at hc
  refine ⟨l, rule, Language.ofName?_eq_some_iff.mp hl, hc, fun m => ?_⟩
  obtain ⟨_, _, _, rfl⟩ := Rule.compile_eq_ok_iff.mp hc
  obtain ⟨old, ho, _⟩ := Option.map_eq_some_iff.mp (hr m)
  rw [ruleFor?_replaceRule, ho, Option.map_some]
  split <;> rfl

theorem keepsFamilies_replacePattern (hr : r.KeepsFamilies)
    (h : r.replacePattern name pattern = .ok r') : r'.KeepsFamilies := by
  obtain ⟨l, rule, _, hc, hm⟩ := replacePattern_spec hr h
  obtain ⟨_, _, _, rfl⟩ := Rule.compile_eq_ok_iff.mp hc
  intro m
  rw [hm]
  split
  · rename_i he
    rw [he, Option.map_some]
  · exact hr m

theorem keepsFamilies_foldlM (hr : r.KeepsFamilies)
    (h : es.foldlM (fun r e => r.replacePattern e.1 e.2) r = .ok r') : r'.KeepsFamilies :=
  foldlM_keeps (fun _ _ _ _ => keepsFamilies_replacePattern) h hr

theorem ruleFor?_foldlM_of_ne (hr : r.KeepsFamilies) (hn : ∀ e ∈ es, e.1 ≠ l.name)
    (h : es.foldlM (fun r e => r.replacePattern e.1 e.2) r = .ok r') :
    r'.ruleFor? l = r.ruleFor? l := by
  refine (foldlM_keeps (P := fun m => m.KeepsFamilies ∧ m.ruleFor? l = r.ruleFor? l)
    (fun e he m m' hm hs => ⟨keepsFamilies_replacePattern hm.1 hs, ?_⟩) h ⟨hr, rfl⟩).2
  obtain ⟨l', rule, hl, _, hf⟩ := replacePattern_spec hm.1 hs
  have hne : l' ≠ l := fun hl' => hn e he (hl.trans (congrArg Language.name hl'))
  rw [hf, if_neg hne, hm.2]

theorem extensions_foldlM_replacePattern
    (h : es.foldlM (fun r e => r.replacePattern e.1 e.2) r = .ok r') :
    r'.extensions = r.extensions := by
  refine foldlM_keeps (P := fun m => m.extensions = r.extensions) (fun e _ m m' hm hs => ?_) h rfl
  obtain ⟨_, _, _, _, rfl⟩ := replacePattern_eq_ok_iff.mp hs
  exact hm

/-! ## Settings -/

theorem languageFor?_ofSettings (h : ofSettings settings = .ok r) (extension : String) :
    r.languageFor? extension =
      match settings.extensions.find? extension with
      | some name => Language.ofName? name
      | none => builtin.languageFor? extension := by
  obtain ⟨middle, hm, h⟩ := exists_middle h
  have hr : r.languageFor? extension = middle.languageFor? extension := by
    rw [languageFor?, extensions_foldlM_replacePattern h, languageFor?]
  rw [hr]
  cases hf : settings.extensions.find? extension with
  | none => exact languageFor?_foldlM_of_ne (Dictionary.key_ne_of_find? hf) hm
  | some name =>
    obtain ⟨u, v, he⟩ := List.append_of_mem (Dictionary.mem_of_find? hf)
    have hv := Dictionary.key_ne_of_split he
    rw [he] at hm
    obtain ⟨before, after, _, ha, hm⟩ := foldlM_split hm
    rw [languageFor?_foldlM_of_ne hv hm, languageFor?_addExtension ha, if_pos rfl]

theorem exists_language (h : ofSettings settings = .ok r)
    (hf : settings.extensions.find? extension = some name) :
    isExtension extension = true ∧ ∃ l, Language.ofName? name = some l := by
  obtain ⟨middle, hm, _⟩ := exists_middle h
  obtain ⟨u, v, he⟩ := List.append_of_mem (Dictionary.mem_of_find? hf)
  rw [he] at hm
  obtain ⟨before, after, _, ha, _⟩ := foldlM_split hm
  obtain ⟨hx, l, hl, _⟩ := addExtension_eq_ok_iff.mp ha
  exact ⟨hx, l, hl⟩

theorem isExtension_ofSettings (h : ofSettings settings = .ok r) :
    ∀ extension ∈ r.extensions.keys, isExtension extension = true := by
  obtain ⟨middle, hm, h⟩ := exists_middle h
  have hb : ∀ e ∈ builtin.extensions.entries, isExtension e.1 = true := by decide
  have hmiddle := foldlM_keeps
    (P := fun m => ∀ e ∈ m.extensions.entries, isExtension e.1 = true) (fun e _ m m' hm hs => ?_)
    hm hb
  · intro extension hx
    rw [Dictionary.keys, extensions_foldlM_replacePattern h] at hx
    obtain ⟨e, he, rfl⟩ := List.mem_map.mp hx
    exact hmiddle e he
  · obtain ⟨hx, l, _, rfl⟩ := addExtension_eq_ok_iff.mp hs
    intro e' he'
    rcases Dictionary.key_mem_insert he' with hk | he'
    · rw [hk, hx]
    · exact hm e' he'

/-- The rule that settings ask for. -/
def IsRuleUnder (settings : LanguageSettings) (l : Language) (rule : Rule) : Prop :=
  match settings.patterns.find? l.name with
  | some pattern => Rule.compile l (Rule.builtin l).family pattern = .ok rule
  | none => rule = Rule.builtin l

theorem ruleFor?_ofSettings (h : ofSettings settings = .ok r) (l : Language) :
    ∃ rule, r.ruleFor? l = some rule ∧ IsRuleUnder settings l rule := by
  obtain ⟨middle, hm, h⟩ := exists_middle h
  have hrules : ∀ l, middle.ruleFor? l = builtin.ruleFor? l := fun l => by
    rw [ruleFor?, rules_foldlM_addExtension hm, ruleFor?]
  have hmiddle : middle.KeepsFamilies := fun l => by rw [hrules, keepsFamilies_builtin l]
  unfold IsRuleUnder
  cases hf : settings.patterns.find? l.name with
  | none =>
    refine ⟨_, ?_, rfl⟩
    rw [ruleFor?_foldlM_of_ne hmiddle (Dictionary.key_ne_of_find? hf) h, hrules]
    cases l <;> rfl
  | some pattern =>
    obtain ⟨u, v, he⟩ := List.append_of_mem (Dictionary.mem_of_find? hf)
    have hv := Dictionary.key_ne_of_split he
    rw [he] at h
    obtain ⟨before, after, hb, ha, h⟩ := foldlM_split h
    have hbefore := keepsFamilies_foldlM hmiddle hb
    obtain ⟨l', rule, hl, hc, hr⟩ := replacePattern_spec hbefore ha
    obtain rfl : l = l' := Option.some_inj.mp
      ((Language.ofName?_name l).symm.trans (Language.ofName?_eq_some_iff.mpr hl))
    refine ⟨rule, ?_, hc⟩
    rw [ruleFor?_foldlM_of_ne (keepsFamilies_replacePattern hbefore ha) hv h, hr, if_pos rfl]

/-- A registry is the built-in one with settings laid over it. -/
structure Overlays (settings : LanguageSettings) (r : Registry) : Prop where
  /-- There is one rule for every language, in listing order. -/
  languages : r.rules.map (·.language) = Language.all
  rule : ∀ l, ∃ rule ∈ r.rules, r.ruleFor? l = some rule ∧ IsRuleUnder settings l rule ∧
    rule.language = l ∧ rule.family = (Rule.builtin l).family ∧
      rule.pattern = (settings.patterns.find? l.name).getD (Rule.builtin l).pattern ∧
        rule.family.Met rule.regex.groupNames
  languageFor : ∀ extension, r.languageFor? extension =
    match settings.extensions.find? extension with
    | some name => Language.ofName? name
    | none => builtin.languageFor? extension
  /-- The languages that the settings name exist. -/
  named : ∀ extension name, settings.extensions.find? extension = some name →
    ∃ l, Language.ofName? name = some l
  points : ∀ extension ∈ r.extensions.keys, isExtension extension = true
  notMissing : ∀ l content missing, r.extract l content ≠ .error (.missingRule missing)
  fails_iff : ∀ l content, (∃ error, r.extract l content = .error error) ↔ '\x00' ∈ content.toList
  unchanged : ∀ l, settings.patterns.find? l.name = none →
    ∀ content, r.extract l content = builtin.extract l content

theorem IsRuleUnder.spec (h : IsRuleUnder settings l rule) :
    rule.language = l ∧ rule.family = (Rule.builtin l).family ∧
      rule.pattern = (settings.patterns.find? l.name).getD (Rule.builtin l).pattern ∧
        rule.family.Met rule.regex.groupNames := by
  unfold IsRuleUnder at h
  split at h
  · rename_i pattern hp
    obtain ⟨regex, _, hmet, rfl⟩ := Rule.compile_eq_ok_iff.mp h
    exact ⟨rfl, rfl, by rw [hp, Option.getD_some], hmet⟩
  · rename_i hp
    subst h
    exact ⟨Rule.language_builtin l, rfl, by rw [hp, Option.getD_none], Rule.met_builtin l⟩

theorem ruleFor?_eq_builtin (h : ofSettings settings = .ok r)
    (hn : settings.patterns.find? l.name = none) : r.ruleFor? l = some (Rule.builtin l) := by
  obtain ⟨rule, hr, hu⟩ := ruleFor?_ofSettings h l
  unfold IsRuleUnder at hu
  rw [hn] at hu
  rw [hr, hu]

theorem extract_eq_builtin (h : ofSettings settings = .ok r)
    (hn : settings.patterns.find? l.name = none) (content : String) :
    r.extract l content = builtin.extract l content := by
  have hb : builtin.ruleFor? l = some (Rule.builtin l) := by cases l <;> rfl
  rw [extract, extract, ruleFor?_eq_builtin h hn, hb]

/-- Accepted settings are laid over the built-in registry as they say and in no other way. -/
theorem overlays_ofSettings (h : ofSettings settings = .ok r) : Overlays settings r where
  languages := languages_ofSettings h
  rule l := by
    obtain ⟨rule, hr, hu⟩ := ruleFor?_ofSettings h l
    exact ⟨rule, List.mem_of_find?_eq_some hr, hr, hu, hu.spec⟩
  languageFor := languageFor?_ofSettings h
  named _ _ hf := (exists_language h hf).2
  points := isExtension_ofSettings h
  notMissing l content missing he := by
    rcases extract_eq h l content with ⟨_, hx⟩ | ⟨_, signatures, hx⟩ <;>
      rw [hx] at he <;> cases he
  fails_iff l content := by
    rcases extract_eq h l content with ⟨hn, hx⟩ | ⟨hn, signatures, hx⟩ <;> simp [hx, hn]
  unchanged _ hn := extract_eq_builtin h hn

/-- Settings that give an extension to another language, add one, and replace a pattern. -/
def sampleSettings : LanguageSettings where
  extensions := .ofList [(".h", "cpp"), (".pyi", "python")]
  patterns := .ofList [("go", "func (?P<name>main)")]

theorem overlays_ofSettings_sample :
    ∃ r, ofSettings sampleSettings = .ok r ∧ Overlays sampleSettings r := by
  have hs : (ofSettings sampleSettings).toOption.isSome = true := by decide +kernel
  cases h : ofSettings sampleSettings with
  | error error =>
    rw [h] at hs
    cases hs
  | ok r => exact ⟨r, rfl, overlays_ofSettings h⟩

end Registry

end CodeOutline
