import CodeOutline.Proofs.Registry.Refusal
import CodeOutline.Proofs.Scan.Content
import CodeOutline.Proofs.Scan.Spelling
import CodeOutline.Proofs.Settings

/-! # Extensions in settings

Settings may name every extension that starts with a point. A scan looks only at what comes after
the last point of a name. So an entry for an extension with more points does what the settings say
of its last suffix, and does nothing of its own.
-/

namespace CodeOutline

/-- The suffix is what starts with the last point of the extension. -/
def Path.IsLastSuffix (suffix extension : String) : Prop :=
  ∃ front rest, extension = front ++ suffix ∧ suffix = "." ++ rest ∧ '.' ∉ rest.toList

variable {suffix extension : String} {name stem : RawText}

theorem Path.exists_lastSuffix (h : '.' ∈ extension.toList) :
    ∃ suffix, IsLastSuffix suffix extension := by
  obtain ⟨rest, front, hl, hr⟩ := List.eq_append_cons_of_mem (List.mem_reverse.mpr h)
  have he : extension = String.ofList front.reverse ++ ("." ++ String.ofList rest.reverse) := by
    rw [← String.toList_inj, String.toList_append, String.toList_append, String.toList_ofList,
      String.toList_ofList, ← List.reverse_reverse extension.toList, hl]
    simp
  exact ⟨_, _, _, he, rfl, by rwa [String.toList_ofList, List.mem_reverse]⟩

theorem Path.exists_lastSuffix_of_isExtension (h : isExtension extension = true) :
    ∃ suffix, IsLastSuffix suffix extension := by
  rw [isExtension, beq_iff_eq] at h
  exact exists_lastSuffix (List.mem_of_head? h)

/-- Of a name that goes on with an extension, only the last suffix counts. -/
theorem Path.extension?_append (h : IsLastSuffix suffix extension) (hs : stem ≠ "") :
    extension? (stem ++ extension) = some suffix := by
  obtain ⟨front, rest, rfl, rfl, hr⟩ := h
  have hdot : (RawText.ofText ("." ++ rest)).bytes = point :: (RawText.ofText rest).bytes := by
    rw [RawText.ofText_append, RawText.bytes_append]
    rfl
  have hl : (stem ++ RawText.ofText (front ++ ("." ++ rest))).bytes.reverse =
      (RawText.ofText rest).bytes.reverse ++
        point :: (stem.bytes ++ (RawText.ofText front).bytes).reverse := by
    rw [RawText.bytes_append, RawText.ofText_append, RawText.bytes_append, hdot]
    simp
  have hp : ∀ b ∈ (RawText.ofText rest).bytes.reverse, (b != point) = true := by
    intro b hb
    rw [bne_iff_ne]
    rintro rfl
    exact hr ((RawText.ascii_mem_bytes (show 0x2E < 0x80 by decide) rest).mp
      (List.mem_reverse.mp hb))
  have hne : (stem.bytes ++ (RawText.ofText front).bytes).reverse ≠ [] := by
    have hb : stem.bytes ≠ [] := fun he => hs (RawText.ext_bytes he)
    simp [hb]
  obtain ⟨b, bs, hb⟩ := List.exists_cons_of_ne_nil hne
  rw [extension?, hl, List.dropWhile_append_of_pos hp, List.takeWhile_append_of_pos hp, hb,
    List.dropWhile_cons_of_neg (by decide), List.takeWhile_cons_of_neg (by decide),
    List.append_nil, List.reverse_reverse, ← hdot]
  exact RawText.text?_ofText _

/-! ## Languages -/

/-- What settings say of an extension, or else the built-in registry. -/
def LanguageSettings.Gives (settings : LanguageSettings) (extension : String) (l : Language) :
    Prop :=
  match settings.extensions.find? extension with
  | some name => name = l.name
  | none => Registry.builtin.languageFor? extension = some l

theorem Registry.languageFor?_eq_some_iff {settings : LanguageSettings} {r : Registry}
    {l : Language} (h : ofSettings settings = .ok r) :
    r.languageFor? extension = some l ↔ settings.Gives extension l := by
  rw [languageFor?_ofSettings h, LanguageSettings.Gives]
  cases settings.extensions.find? extension with
  | none => exact Iff.rfl
  | some name => exact Language.ofName?_eq_some_iff

namespace Scanner

variable {s : Scanner} {v : Volume} {env : Environment} {up names : List RawText}

theorem languageOf?_append (h : Path.IsLastSuffix suffix extension) (hs : stem ≠ "") :
    s.languageOf? (stem ++ extension) = s.registry.languageFor? suffix := by
  rw [languageOf?, Path.extension?_append h hs, Option.bind_some]

/-! ## Listings -/

/-- The listing has a line for a file at these names. -/
def ShowsFile (s : Scanner) (v : Volume) (env : Environment) (names : List RawText) : Prop :=
  ∃ i ∈ s.fileItems v env, i.path = names

/-- What a walk comes to under a name, and would list as a file but for its extension. -/
structure Reaches (s : Scanner) (v : Volume) (env : Environment) (up : List RawText)
    (name : RawText) : Prop where
  stands : (v.standing? env.cwd s.root (up ++ [name])).isSome
  file : ¬ v.CountsAsDirectory env.cwd s.root (up ++ [name])
  opened : ∀ way, way <+: up → v.Opens env.cwd s.root way
  entered : ∀ q directory, q ++ [directory] <+: up →
    v.CountsAsDirectory env.cwd s.root (q ++ [directory]) →
      directory.shown ∉ s.settings.ignoreDirs
  kept : name.shown ∉ s.settings.ignoreFiles

theorem showsFile_iff (hv : v.Proper) (hg : s.settings.respectGitignore = false) :
    s.ShowsFile v env names ↔
      s.Shows v env names ∧ ¬ v.CountsAsDirectory env.cwd s.root names := by
  constructor
  · rintro ⟨i, hi, rfl⟩
    obtain ⟨hi, hk⟩ := mem_fileItems.mp hi
    refine ⟨((mem_items_iff hv hg).mp hi).1, fun hd => ?_⟩
    cases hk.symm.trans ((kind_iff_of_mem_items hv hi).mpr hd)
  · rintro ⟨hs, hd⟩
    obtain ⟨e, he, rfl⟩ := (exists_mem_entries_iff hv hg).mpr hs
    have hi : e.item ∈ s.items v env := List.mem_map_of_mem he
    refine ⟨e.item, mem_fileItems.mpr ⟨hi, ?_⟩, rfl⟩
    cases hk : e.item.kind with
    | directory => exact absurd ((kind_iff_of_mem_items hv hi).mp hk) hd
    | file => rfl

theorem Reaches.showsFile_iff (h : s.Reaches v env up name) (hv : v.Proper)
    (hg : s.settings.respectGitignore = false) :
    s.ShowsFile v env (up ++ [name]) ↔
      ∀ extension, Path.extension? name = some extension →
        extension ∉ s.settings.ignoreExtensions := by
  rw [Scanner.showsFile_iff hv hg, and_iff_left h.file]
  constructor
  · intro hs
    exact (hs.kept up name rfl h.file).2
  · intro hx
    refine ⟨by simp, h.stands, fun way hway hne => ?_, fun q directory hq hd => ?_,
      fun q other heq _ => ?_⟩
    · exact h.opened way ((List.prefix_concat_iff.mp hway).resolve_left hne)
    · rcases List.prefix_concat_iff.mp hq with heq | hq
      · rw [heq] at hd
        exact absurd hd h.file
      · exact h.entered q directory hq hd
    · obtain ⟨_, rfl⟩ := List.append_singleton_inj.mp heq
      exact ⟨h.kept, hx⟩

theorem not_showsFile_of_extension (hv : v.Proper) (hx : Path.extension? name = some extension)
    (hm : extension ∈ s.settings.ignoreExtensions) (env : Environment) (up : List RawText) :
    ¬ s.ShowsFile v env (up ++ [name]) := by
  rintro ⟨i, hi, hp⟩
  exact (not_leftOut_of_mem_fileItems hv hi hp).1.2 extension hx hm

/-- What settings say of an extension holds for the files that end in it exactly when they say it of
the last suffix of the extension. -/
theorem extensions_effective_iff (s : Scanner) :
    (∀ languages, Registry.ofSettings languages = .ok s.registry →
      ∀ extension name, languages.extensions.find? extension = some name →
        ∃ suffix l, Path.IsLastSuffix suffix extension ∧ name = Language.name l ∧
          (suffix = extension → languages.Gives suffix l) ∧
            ∀ stem : RawText, stem ≠ "" →
              (s.languageOf? (stem ++ extension) = some l ↔ languages.Gives suffix l)) ∧
    ∀ languages, Settings.check ⟨s.settings, languages⟩ = .ok () →
      ∀ extension ∈ s.settings.ignoreExtensions, ∃ suffix, Path.IsLastSuffix suffix extension ∧
        ∀ stem : RawText, stem ≠ "" → ∀ (v : Volume) (env : Environment), v.Proper →
          Line.locate (s.scan v env).tree = (s.items v env).map Item.line ∧
          (suffix ∈ s.settings.ignoreExtensions → ∀ up,
            ¬ s.ShowsFile v env (up ++ [stem ++ extension])) ∧
          (s.settings.respectGitignore = false → ∀ up, s.Reaches v env up (stem ++ extension) →
            (s.ShowsFile v env (up ++ [stem ++ extension]) ↔
              suffix ∉ s.settings.ignoreExtensions)) := by
  constructor
  · intro languages hr extension name hf
    obtain ⟨hx, l, hl⟩ := Registry.exists_language hr hf
    obtain ⟨suffix, hsuffix⟩ := Path.exists_lastSuffix_of_isExtension hx
    have hname := Language.ofName?_eq_some_iff.mp hl
    refine ⟨suffix, l, hsuffix, hname, ?_, fun stem hs => ?_⟩
    · rintro rfl
      rw [LanguageSettings.Gives, hf]
      exact hname
    · rw [languageOf?_append hsuffix hs, Registry.languageFor?_eq_some_iff hr]
  · intro languages hc extension hx
    obtain ⟨suffix, hsuffix⟩ := Path.exists_lastSuffix_of_isExtension
      (Settings.isExtension_of_check hc hx)
    refine ⟨suffix, hsuffix, fun stem hs v env hv => ?_⟩
    have he := Path.extension?_append hsuffix hs
    refine ⟨locate_tree hv s env, fun hm up => not_showsFile_of_extension hv he hm env up,
      fun hg up hreach => ?_⟩
    rw [hreach.showsFile_iff hv hg, he]
    exact ⟨fun h => h suffix rfl, fun h _ hsome => Option.some_inj.mp hsome ▸ h⟩

/-! ## Extensions with two points -/

/-- A directory with two files whose names have two points. -/
def pointsVolume : Volume where
  top := .directory [("a.d.txt", .file "function f() \x7b\n\x7d\n".toUTF8),
    ("b.min.js", .file .empty)]

/-- Settings for the extensions of both files. -/
def pointsSettings : Settings :=
  ⟨{ ScanSettings.default with ignoreExtensions := [".min.js"] },
    ⟨.ofList [(".d.txt", "typescript")], .empty⟩⟩

def pointsRegistry : Registry :=
  { Registry.builtin with extensions := Registry.builtin.extensions.insert ".d.txt" .typescript }

def pointsScanner : Scanner :=
  ⟨"/", pointsSettings.scan, pointsRegistry, []⟩

theorem pointsVolume_proper : pointsVolume.Proper :=
  .directory _ (by decide) (by decide)
    (List.forall_mem_cons.mpr ⟨.file _, List.forall_mem_singleton.mpr (.file _)⟩)

theorem ofSettings_points : Registry.ofSettings pointsSettings.languages = .ok pointsRegistry :=
  rfl

theorem check_points : pointsSettings.check = .ok () :=
  rfl

theorem find_pointsVolume : pointsVolume.find topEnvironment.cwd pointsScanner.root =
    .ok ⟨[], pointsVolume.top, Volume.linkLimit⟩ := rfl

theorem build_points : ofSettings pointsVolume topEnvironment "/" pointsSettings =
    .ok pointsScanner := by
  rw [ofSettings, ofSettings_points]
  exact build_eq_ok_iff.mpr ⟨rfl, [], rfl, rfl⟩

theorem reaches_points : pointsScanner.Reaches pointsVolume topEnvironment [] "b.min.js" where
  stands := rfl
  file := by
    rintro (⟨es, hd⟩ | ⟨⟨target, hd⟩, _⟩) <;> cases hd
  opened way hw := by
    rw [List.prefix_nil.mp hw]
    exact ⟨_, rfl⟩
  entered q directory h := by simp at h
  kept := by decide +kernel

theorem extensions_effective_iff_points :
    (Registry.ofSettings pointsSettings.languages = .ok pointsScanner.registry ∧
      pointsSettings.languages.extensions.find? ".d.txt" = some "typescript" ∧
      Settings.check ⟨pointsScanner.settings, pointsSettings.languages⟩ = .ok () ∧
      ".min.js" ∈ pointsScanner.settings.ignoreExtensions ∧
      pointsVolume.Proper ∧ pointsScanner.settings.respectGitignore = false ∧
      pointsScanner.Reaches pointsVolume topEnvironment [] "b.min.js") ∧
    (∃ suffix l, Path.IsLastSuffix suffix ".d.txt" ∧ "typescript" = Language.name l ∧
      (pointsScanner.languageOf? "a.d.txt" = some l ↔ pointsSettings.languages.Gives suffix l)) ∧
    ∃ suffix, Path.IsLastSuffix suffix ".min.js" ∧
      (pointsScanner.ShowsFile pointsVolume topEnvironment ["b.min.js"] ↔
        suffix ∉ pointsScanner.settings.ignoreExtensions) := by
  obtain ⟨hlanguages, hhidden⟩ := extensions_effective_iff pointsScanner
  refine ⟨⟨ofSettings_points, rfl, check_points, List.mem_singleton_self _, pointsVolume_proper,
    rfl, reaches_points⟩, ?_, ?_⟩
  · obtain ⟨suffix, l, hs, hl, _, h⟩ := hlanguages _ ofSettings_points ".d.txt" "typescript" rfl
    exact ⟨suffix, l, hs, hl, h "a" (by decide)⟩
  · obtain ⟨suffix, hs, h⟩ := hhidden _ check_points ".min.js" (List.mem_singleton_self _)
    obtain ⟨_, _, hiff⟩ := h "b" (by decide) pointsVolume topEnvironment pointsVolume_proper
    exact ⟨suffix, hs, hiff rfl [] reaches_points⟩

/-- Settings are accepted that name a language for one file and hide the other one. But the file is
in no language, and the other one is listed. -/
theorem points_not_effective : ∃ s,
    ofSettings pointsVolume topEnvironment "/" pointsSettings = .ok s ∧
      pointsSettings.check = .ok () ∧
      pointsSettings.languages.extensions.find? ".d.txt" = some "typescript" ∧
        s.languageOf? (("a" : RawText) ++ (".d.txt" : RawText)) = none ∧
          ".min.js" ∈ pointsSettings.scan.ignoreExtensions ∧
            (s.scan pointsVolume topEnvironment).tree =
              [⟨1, "a.d.txt", .file⟩, ⟨1, "b" ++ ".min.js", .file⟩] := by
  refine ⟨pointsScanner, build_points, check_points, rfl, ?_, List.mem_singleton_self _, ?_⟩
  · decide +kernel
  · rw [scan, entries_of_shut find_pointsVolume rfl rfl] <;> decide +kernel

end Scanner

end CodeOutline
