import Mathlib.Data.List.Forall2
import Mathlib.Data.List.Nodup
import CodeOutline.Command.Run
import CodeOutline.Proofs.Registry.Overlay
import CodeOutline.Proofs.Text.Order

/-! # The table of languages

A language has those extensions that select it. So no extension belongs to two languages, and all of
them together are the built-in ones and those of the settings. The table of languages shows each of
them once, in the row of its language.
-/

namespace CodeOutline

namespace Registry

variable {r : Registry} {l m : Language} {extension : String} {settings : LanguageSettings}

/-! ## Extensions of a language -/

/-- The listing of the extensions is the inverse of looking one up. -/
theorem mem_extensionsFor : extension ∈ r.extensionsFor l ↔ r.languageFor? extension = some l := by
  rw [languageFor?, Dictionary.find?_eq_some_iff]
  simp [extensionsFor]

theorem pairwise_extensionsFor (r : Registry) (l : Language) :
    (r.extensionsFor l).Pairwise (· < ·) :=
  List.pairwise_map.mpr (r.extensions.sorted.filter _)

theorem nodup_extensionsFor (r : Registry) (l : Language) : (r.extensionsFor l).Nodup := by
  refine (pairwise_extensionsFor r l).imp ?_
  rintro a _ h rfl
  exact String.lt_irrefl a h

theorem disjoint_extensionsFor (h : l ≠ m) : (r.extensionsFor l).Disjoint (r.extensionsFor m) := by
  intro extension hl hm
  rw [mem_extensionsFor] at hl hm
  exact h (Option.some_inj.mp (hl.symm.trans hm))

/-! ## Extensions of all languages -/

theorem languageFor?_builtin_iff :
    builtin.languageFor? extension = some l ↔ extension ∈ Rule.builtinExtensions l := by
  constructor
  · intro h
    have hb : ∀ e ∈ builtin.extensions.entries, e.1 ∈ Rule.builtinExtensions e.2 := by decide
    exact hb _ (Dictionary.mem_of_find? h)
  · have hb : ∀ e ∈ Rule.builtinExtensions l, builtin.languageFor? e = some l := by
      cases l <;> decide
    exact hb extension

theorem exists_languageFor?_iff (h : ofSettings settings = .ok r) :
    (∃ l, r.languageFor? extension = some l) ↔
      (∃ l, extension ∈ Rule.builtinExtensions l) ∨ extension ∈ settings.extensions.keys := by
  rw [languageFor?_ofSettings h, Dictionary.mem_keys_iff]
  cases hf : settings.extensions.find? extension with
  | none => simp [languageFor?_builtin_iff]
  | some name =>
    obtain ⟨_, l, hl⟩ := exists_language h hf
    simp [hl]

theorem pairwise_rules (h : ofSettings settings = .ok r) :
    r.rules.Pairwise fun a b => a.language ≠ b.language := by
  have hn : r.languages.Nodup := by
    rw [languages_ofSettings h]
    decide
  exact List.pairwise_map.mp hn

theorem exists_rule (h : ofSettings settings = .ok r) (l : Language) :
    ∃ rule ∈ r.rules, rule.language = l := by
  have hl : l ∈ r.languages := by
    rw [languages_ofSettings h]
    cases l <;> decide
  exact List.mem_map.mp hl

/-- The extensions that a registry lists for the languages of its rules, all of them. -/
def allExtensions (r : Registry) : List String :=
  r.rules.flatMap fun rule => r.extensionsFor rule.language

theorem mem_allExtensions (h : ofSettings settings = .ok r) :
    extension ∈ r.allExtensions ↔ ∃ l, r.languageFor? extension = some l := by
  simp only [allExtensions, List.mem_flatMap, mem_extensionsFor]
  constructor
  · rintro ⟨rule, _, hl⟩
    exact ⟨rule.language, hl⟩
  · rintro ⟨l, hl⟩
    obtain ⟨rule, hrule, rfl⟩ := exists_rule h l
    exact ⟨rule, hrule, hl⟩

/-- The listings of a registry divide the extensions among the languages. -/
structure Partitions (settings : LanguageSettings) (r : Registry) : Prop where
  /-- In every listing the extensions are in the order of their bytes, and none is there twice. -/
  increasing : ∀ rule ∈ r.rules, (r.extensionsFor rule.language).Pairwise fun a b =>
    Text.bytes a < Text.bytes b
  disjoint : r.rules.Pairwise fun a b =>
    (r.extensionsFor a.language).Disjoint (r.extensionsFor b.language)
  once : r.allExtensions.Nodup
  all : ∀ extension, extension ∈ r.allExtensions ↔
    (∃ l, extension ∈ Rule.builtinExtensions l) ∨ extension ∈ settings.extensions.keys
  selects : ∀ l extension, extension ∈ r.extensionsFor l ↔ r.languageFor? extension = some l

theorem partitions (h : ofSettings settings = .ok r) : Partitions settings r := by
  have hd := (pairwise_rules h).imp fun hne => disjoint_extensionsFor (r := r) hne
  constructor
  · exact fun rule _ => (pairwise_extensionsFor r rule.language).imp Text.bytes_lt_of_lt
  · exact hd
  · exact List.nodup_flatMap.mpr ⟨fun rule _ => nodup_extensionsFor r rule.language, hd⟩
  · intro extension
    rw [mem_allExtensions h, exists_languageFor?_iff h]
  · exact fun l extension => mem_extensionsFor

end Registry

namespace Command

variable {r : Registry} {settings : LanguageSettings}

/-! ## Rows -/

/-- A row of the table: it starts with the language, and its third column has the extensions. -/
structure IsRow (r : Registry) (l : Language) (row : String) : Prop where
  language : l.name.toList <+: row.toList
  extensions : row.toList.drop 32 = (", ".intercalate (r.extensionsFor l)).toList

/-- A text has a row for every language, in listing order. -/
def HasRows (r : Registry) (text : String) : Prop :=
  ∃ above rows below : List String, text = Text.unlines (above ++ rows ++ below) ∧
    above.length = 4 ∧ List.Forall₂ (IsRow r) Language.all rows

/-- The first two columns of a row. -/
def labelOf (l : Language) (f : Family) : String :=
  Text.pad 12 .left none l.name ++ " " ++ Text.pad 18 .left none f.name ++ " "

theorem toList_pad (width : Nat) (s : String) : (Text.pad width .left none s).toList =
    s.toList ++ List.replicate (width - s.toList.length) ' ' := by
  simp [Text.pad]

theorem length_pad {width : Nat} {s : String} (h : s.toList.length ≤ width) :
    (Text.pad width .left none s).toList.length = width := by
  rw [toList_pad, List.length_append, List.length_replicate]
  omega

theorem length_labelOf (l : Language) (f : Family) : (labelOf l f).toList.length = 32 := by
  have hl : l.name.toList.length ≤ 12 := by cases l <;> decide
  have hf : f.name.toList.length ≤ 18 := by cases f <;> decide
  have hs : (" " : String).toList.length = 1 := rfl
  simp only [labelOf, String.toList_append, List.length_append, length_pad hl, length_pad hf, hs]

theorem isRow_labelOf (r : Registry) (l : Language) (f : Family) :
    IsRow r l (labelOf l f ++ ", ".intercalate (r.extensionsFor l)) := by
  constructor
  · simp only [labelOf, String.toList_append, toList_pad, List.append_assoc]
    exact List.prefix_append _ _
  · rw [String.toList_append, List.drop_left' (length_labelOf l f)]

theorem hasRows_languagesText (h : Registry.ofSettings settings = .ok r) :
    HasRows r (languagesText r) := by
  refine ⟨_, _, _, rfl, rfl, ?_⟩
  rw [← Registry.languages_ofSettings h, Registry.languages, List.forall₂_map_left_iff,
    List.forall₂_map_right_iff]
  exact List.forall₂_same.mpr fun rule _ => isRow_labelOf r rule.language rule.family

theorem languages_eq_ok {v : Volume} {env : Environment} {named : Option String} {s : Settings}
    (hl : loadSettings v env (SettingsSource.resolve v env "." named) = .ok s)
    (hr : Registry.ofSettings s.languages = .ok r) :
    languages v env named = .ok (languagesText r) := by
  rw [languages, hl]
  simp only [bind, Except.bind, hr]
  rfl

/-- The languages of accepted settings divide all extensions, the built-in ones and those of the
settings, among themselves, and the command shows them so. -/
theorem languages_partition (h : Registry.ofSettings settings = .ok r) :
    r.Partitions settings ∧ HasRows r (languagesText r) ∧
      ∀ (v : Volume) (env : Environment) (named : Option String) (scan : ScanSettings),
        loadSettings v env (SettingsSource.resolve v env "." named) = .ok ⟨scan, settings⟩ →
          languages v env named = .ok (languagesText r) :=
  ⟨Registry.partitions h, hasRows_languagesText h, fun _ _ _ _ hl => languages_eq_ok hl h⟩

/-- Settings that give a built-in extension to another language and add one. -/
def movedSettings : LanguageSettings where
  extensions := .ofList [(".h", "cpp"), (".pyi", "python")]
  patterns := .empty

theorem languages_partition_moved :
    ∃ r, Registry.ofSettings movedSettings = .ok r ∧ r.Partitions movedSettings ∧
      r.extensionsFor .c = [".c"] ∧ r.extensionsFor .cpp = [".cc", ".cpp", ".h", ".hpp"] := by
  have h : Registry.ofSettings movedSettings = .ok ⟨Registry.builtin.rules,
      (Registry.builtin.extensions.insert ".h" .cpp).insert ".pyi" .python⟩ := rfl
  exact ⟨_, h, (languages_partition h).1, by decide, by decide⟩

end Command

end CodeOutline
