import CodeOutline.Proofs.Command.Init
import CodeOutline.Proofs.Registry.Refusal
import CodeOutline.Proofs.Settings

/-! # Setting up a scanner

Settings that pass the checks have no globs that a scanner would refuse. The directory of a scan is
looked at before its settings. So only its languages can keep the command from setting up a scanner.
-/

namespace CodeOutline

variable {v : Volume} {env : Environment} {root : RawText} {settings : Settings}

/-! ## Scanners -/

namespace Scanner

theorem parseGlobs_eq_error_iff {texts : List String} {error : ScanError} :
    parseGlobs texts = .error error ↔
      ∃ text e, FirstRefused Glob.parse texts text e ∧ error = .invalidGlob text e :=
  mapM_eq_error_iff_firstRefused (fun _ _ h => by rw [h]) fun _ _ h => by rw [h]

/-- Below a directory, only refused globs stand in the way of a scanner. -/
theorem build_eq_error_iff {registry : Registry} {error : ScanError}
    (hd : v.isDirectory env.cwd (Path.join env.cwd root) = true) :
    build v env ⟨some root, some settings.scan, some registry, []⟩ = .error error ↔
      ∃ text e, FirstRefused Glob.parse settings.scan.exclude text e ∧
        error = .invalidGlob text e := by
  rw [← parseGlobs_eq_error_iff, build]
  simp only [Option.getD_some, hd, List.append_nil, Bool.not_true, Bool.false_eq_true, if_false]
  cases parseGlobs settings.scan.exclude with
  | error first => simp [bind, Except.bind]
  | ok globs => simp [bind, Except.bind, pure, Except.pure]

theorem ofSettings_eq_error_iff {error : ScanError}
    (hd : v.isDirectory env.cwd (Path.join env.cwd root) = true) (hc : settings.check = .ok ()) :
    ofSettings v env root settings = .error error ↔
      ∃ e, Registry.ofSettings settings.languages = .error e ∧ error = .registry e := by
  rw [ofSettings]
  cases Registry.ofSettings settings.languages with
  | error e => simp [eq_comm]
  | ok registry =>
    simp only [build_eq_error_iff hd, reduceCtorEq, false_and, exists_false, iff_false]
    rintro ⟨text, e, hg, _⟩
    exact Settings.not_firstRefused hc text e hg

end Scanner

/-- The check of settings and the scanner under them refuse the same glob, or none. -/
structure GlobsAgree (v : Volume) (env : Environment) (root : RawText) (settings : Settings) :
    Prop where
  fails_iff : (∃ error, settings.check = .error error) ↔
    ∃ error, Scanner.ofSettings v env root settings = .error error
  cause : ∀ error, settings.check = .error error → ∃ text e,
    FirstRefused Glob.parse settings.scan.exclude text e ∧
      error = .unusable (.invalidGlob text e) ∧
        Scanner.ofSettings v env root settings = .error (.invalidGlob text e)

theorem globsAgree (hm : 1 ≤ settings.scan.maxSignatures)
    (hx : ∀ extension ∈ settings.scan.ignoreExtensions, ∃ rest, extension = "." ++ rest)
    (hd : v.isDirectory env.cwd (Path.join env.cwd root) = true)
    (hl : ∃ registry, Registry.ofSettings settings.languages = .ok registry) :
    GlobsAgree v env root settings := by
  obtain ⟨registry, hl⟩ := hl
  have hpoints : ∀ extension ∈ settings.scan.ignoreExtensions, isExtension extension = true :=
    fun extension he => isExtension_iff.mpr (hx extension he)
  have hcheck : ∀ error, settings.check = .error error ↔ ∃ text e,
      FirstRefused Glob.parse settings.scan.exclude text e ∧
        error = .unusable (.invalidGlob text e) :=
    fun _ => Settings.check_eq_error_iff hm hpoints
  have hbuild : ∀ error, Scanner.ofSettings v env root settings = .error error ↔ ∃ text e,
      FirstRefused Glob.parse settings.scan.exclude text e ∧ error = .invalidGlob text e := by
    intro error
    rw [Scanner.ofSettings, hl]
    exact Scanner.build_eq_error_iff hd
  constructor
  · constructor
    · rintro ⟨error, h⟩
      obtain ⟨text, e, hg, _⟩ := (hcheck error).mp h
      exact ⟨_, (hbuild _).mpr ⟨text, e, hg, rfl⟩⟩
    · rintro ⟨error, h⟩
      obtain ⟨text, e, hg, _⟩ := (hbuild error).mp h
      exact ⟨_, (hcheck _).mpr ⟨text, e, hg, rfl⟩⟩
  · intro error h
    obtain ⟨text, e, hg, he⟩ := (hcheck error).mp h
    exact ⟨text, e, hg, he, (hbuild _).mpr ⟨text, e, hg, rfl⟩⟩

/-! ## The command -/

namespace Command

variable {a : ScanArguments} {named : Option RawText} {failure : Failure} {arguments : List RawText}

/-- The directory of a scan. -/
def ScanArguments.directory (a : ScanArguments) (env : Environment) : RawText :=
  Path.absolute env.cwd (a.path.getD ".")

theorem join_directory (a : ScanArguments) (env : Environment) :
    Path.join env.cwd (a.directory env) = a.directory env :=
  Path.join_of_isAbsolute _ (Path.isAbsolute_cons _)

theorem message_of_loadSettings {source : SettingsSource}
    (h : loadSettings v env source = .error failure) :
    ∃ path, failure.message = "Failed to load config: " ++ path := by
  rw [loadSettings] at h
  split at h
  · cases h
  rename_i path _
  split at h
  · cases h
  · cases h
    exact ⟨path.shown, rfl⟩

theorem scanSettings_cases (v : Volume) (env : Environment) (root : RawText) (a : ScanArguments)
    (named : Option RawText) :
    (∃ settings, scanSettings v env root a named = .ok settings ∧ settings.check = .ok ()) ∨
      ∃ failure, scanSettings v env root a named = .error failure ∧
        ((∃ path, failure.message = "Failed to load config: " ++ path) ∨
          failure.message = "Config validation failed") := by
  rw [scanSettings]
  cases hl : loadSettings v env (SettingsSource.resolve v env root named) with
  | error failure => exact Or.inr ⟨failure, rfl, Or.inl (message_of_loadSettings hl)⟩
  | ok loaded =>
    dsimp only [bind, Except.bind]
    cases hc : (a.apply loaded).check with
    | error error => exact Or.inr ⟨_, rfl, Or.inr rfl⟩
    | ok _ => exact Or.inl ⟨_, rfl, hc⟩

theorem scan_eq_of_scanSettings (hd : v.isDirectory env.cwd (a.directory env) = true)
    (hs : scanSettings v env (a.directory env) a named = .ok settings) :
    scan v env a named =
      match Scanner.ofSettings v env (a.directory env) settings with
      | .ok scanner => .ok (scanner.scan v env)
      | .error error => .error ⟨"Failed to set up scanner", error.causes⟩ := by
  rw [ScanArguments.directory] at hd hs ⊢
  simp only [scan, hd, hs, Bool.not_true, Bool.false_eq_true, if_false, bind, Except.bind]
  rfl

/-- A scan has a directory and settings that pass the checks, but their languages make no
registry. -/
def RefusesLanguages (v : Volume) (env : Environment) (a : ScanArguments) (named : Option RawText)
    (failure : Failure) : Prop :=
  v.isDirectory env.cwd (a.directory env) = true ∧ ∃ settings error,
    scanSettings v env (a.directory env) a named = .ok settings ∧
      Registry.ofSettings settings.languages = .error error ∧
        failure = ⟨"Failed to set up scanner", error.causes⟩

theorem scan_eq_error_cases (h : scan v env a named = .error failure) :
    failure.message = "Directory '" ++ (a.directory env).shown ++ "' does not exist." ∨
      (∃ path, failure.message = "Failed to load config: " ++ path) ∨
        failure.message = "Config validation failed" ∨ RefusesLanguages v env a named failure := by
  cases hd : v.isDirectory env.cwd (a.directory env) with
  | false =>
    rw [ScanArguments.directory] at hd
    simp only [scan, hd] at h
    cases h
    exact Or.inl rfl
  | true =>
    rcases scanSettings_cases v env (a.directory env) a named with
      ⟨settings, hs, hc⟩ | ⟨first, hs, hm⟩
    · rw [scan_eq_of_scanSettings hd hs] at h
      cases ho : Scanner.ofSettings v env (a.directory env) settings with
      | ok scanner =>
        rw [ho] at h
        cases h
      | error error =>
        rw [ho] at h
        cases h
        have hd' : v.isDirectory env.cwd (Path.join env.cwd (a.directory env)) = true := by
          rw [join_directory, hd]
        obtain ⟨e, he, rfl⟩ := (Scanner.ofSettings_eq_error_iff hd' hc).mp ho
        exact Or.inr (Or.inr (Or.inr ⟨hd, settings, e, hs, he, rfl⟩))
    · rw [ScanArguments.directory] at hd hs
      simp only [scan, hd, hs] at h
      cases h
      exact Or.inr (hm.elim Or.inl fun hm => Or.inr (Or.inl hm))

theorem RefusesLanguages.scan_eq (h : RefusesLanguages v env a named failure) :
    scan v env a named = .error failure := by
  obtain ⟨hd, settings, error, hs, he, rfl⟩ := h
  rw [scan_eq_of_scanSettings hd hs, Scanner.ofSettings, he]
  rfl

/-! ## What is said -/

/-- The run says that no scanner could be set up. -/
def Outcome.FailsSetUp (o : Outcome) : Prop :=
  "Error: Failed to set up scanner".toList <+: o.error.toList

theorem Failure.exists_text_eq (f : Failure) :
    ∃ rest, f.text.toList = "Error: ".toList ++ (f.message.toList ++ rest) := by
  rw [Failure.text, String.toList_append, String.toList_append, List.append_assoc]
  exact ⟨_, rfl⟩

theorem toList_setUpText : "Error: Failed to set up scanner".toList =
    "Error: ".toList ++ "Failed to set up scanner".toList := rfl

theorem not_failsSetUp {start rest : String} {o : Outcome} (ho : o.error = failure.text)
    (hm : failure.message = start ++ rest)
    (hs : ¬ "Failed to set up scanner".toList <+: start.toList)
    (hs' : ¬ start.toList <+: "Failed to set up scanner".toList) : ¬ o.FailsSetUp := by
  obtain ⟨rest', ht⟩ := failure.exists_text_eq
  rw [Outcome.FailsSetUp, ho, ht, hm, toList_setUpText, List.prefix_append_right_inj,
    String.toList_append, List.append_assoc]
  intro h
  exact (List.prefix_or_prefix_of_prefix h (List.prefix_append _ _)).elim hs hs'

theorem not_failsSetUp_of_eq (message : String) {o : Outcome} (ho : o.error = failure.text)
    (hm : failure.message = message) (hs : ¬ "Failed to set up scanner".toList <+: message.toList)
    (hs' : ¬ message.toList <+: "Failed to set up scanner".toList) : ¬ o.FailsSetUp :=
  not_failsSetUp ho (hm.trans String.append_empty.symm) hs hs'

theorem not_failsSetUp_silent {o : Outcome} (ho : o.error = "") : ¬ o.FailsSetUp := by
  rw [Outcome.FailsSetUp, ho]
  decide

theorem not_failsSetUp_loading {path : String} {o : Outcome} (ho : o.error = failure.text)
    (hm : failure.message = "Failed to load config: " ++ path) : ¬ o.FailsSetUp :=
  not_failsSetUp ho hm (by decide) (by decide)

theorem not_failsSetUp_languages : ¬ ((perform env ⟨.languages, named⟩).outcome v).FailsSetUp := by
  rw [outcome_languages]
  cases hl : languages v env named with
  | ok text => exact not_failsSetUp_silent rfl
  | error failure =>
    rw [languages] at hl
    cases hs : loadSettings v env (SettingsSource.resolve v env "." named) with
    | error first =>
      rw [hs] at hl
      cases hl
      obtain ⟨path, hm⟩ := message_of_loadSettings hs
      exact not_failsSetUp_loading rfl hm
    | ok settings =>
      rw [hs] at hl
      dsimp only [bind, Except.bind] at hl
      split at hl
      · cases hl
      · cases hl
        exact not_failsSetUp_of_eq "Invalid [languages] config" rfl rfl (by decide) (by decide)

theorem not_failsSetUp_init {force : Bool} : ¬ ((init env force).outcome v).FailsSetUp := by
  rw [outcome_init]
  split
  · exact not_failsSetUp rfl String.append_assoc (by decide) (by decide)
  · obtain ⟨after, error?⟩ := v.write env.cwd newFileName template.toUTF8
    cases error? with
    | none => exact not_failsSetUp_silent rfl
    | some error => cases error <;> exact not_failsSetUp_of_eq _ rfl rfl (by decide) (by decide)

theorem not_failsSetUp_write {f : Format} {r : Report} : ¬ ((f.write r).outcome v).FailsSetUp := by
  rw [outcome_write]
  cases f.text r with
  | ok text => exact not_failsSetUp_silent rfl
  | error start => exact not_failsSetUp_of_eq _ rfl rfl (by decide) (by decide)

/-- Only scans whose settings refuse their languages fail to set up a scanner. -/
theorem failsSetUp_iff : (run v env arguments).FailsSetUp ↔ ∃ a named failure,
    Invocation.ofArguments arguments = .ok ⟨.scan a, named⟩ ∧
      RefusesLanguages v env a named failure ∧
        run v env arguments = ⟨1, "", failure.text, v⟩ := by
  constructor
  · intro h
    rw [run] at h ⊢
    split at h
    · exact absurd (show "Error: Failed to set up scanner".toList <+: misuseText.toList from h)
        (by decide)
    · exact absurd h (not_failsSetUp_silent rfl)
    · exact absurd h (not_failsSetUp_silent rfl)
    rename_i i hi
    obtain ⟨task, named⟩ := i
    cases task with
    | scan a =>
      rw [hi]
      rw [outcome_scan] at h ⊢
      cases hs : scan v env a named with
      | ok r =>
        rw [hs] at h
        exact absurd h not_failsSetUp_write
      | error failure =>
        rw [hs] at h
        refine ⟨a, named, failure, rfl, ?_, rfl⟩
        -- All other messages part from the one about the scanner.
        rcases scan_eq_error_cases hs with hm | ⟨path, hm⟩ | hm | hr
        · exact absurd h (not_failsSetUp rfl (hm.trans String.append_assoc) (by decide) (by decide))
        · exact absurd h (not_failsSetUp_loading rfl hm)
        · exact absurd h (not_failsSetUp_of_eq _ rfl hm (by decide) (by decide))
        · exact hr
    | languages => exact absurd h not_failsSetUp_languages
    | init force => exact absurd h not_failsSetUp_init
  · rintro ⟨a, named, failure, _, ⟨_, settings, error, _, _, rfl⟩, ho⟩
    obtain ⟨rest, ht⟩ := Failure.exists_text_eq ⟨"Failed to set up scanner", error.causes⟩
    rw [ho, Outcome.FailsSetUp, ht, toList_setUpText, List.prefix_append_right_inj]
    exact List.prefix_append _ _

/-- The check of settings and the scanner agree on globs, so that the command fails to set up a
scanner for the languages of the settings only. -/
theorem setUp_fails_iff (v : Volume) (env : Environment) :
    (∀ root settings, 1 ≤ settings.scan.maxSignatures →
      (∀ extension ∈ settings.scan.ignoreExtensions, ∃ rest, extension = "." ++ rest) →
      v.isDirectory env.cwd (Path.join env.cwd root) = true →
      (∃ registry, Registry.ofSettings settings.languages = .ok registry) →
      GlobsAgree v env root settings) ∧
    ∀ arguments, (run v env arguments).FailsSetUp ↔ ∃ a named failure,
      Invocation.ofArguments arguments = .ok ⟨.scan a, named⟩ ∧
        RefusesLanguages v env a named failure ∧
          run v env arguments = ⟨1, "", failure.text, v⟩ :=
  ⟨fun _ _ => globsAgree, fun _ => failsSetUp_iff⟩

/-! ## A project -/

/-- Settings with an extension that has no point. -/
def pointlessText : String :=
  "[languages.extensions]\npyi = \"python\"\n"

def pointlessSettings : Settings :=
  ⟨.default, ⟨.ofList [("pyi", "python")], .empty⟩⟩

def pointlessEntries : List (RawText × Node) :=
  [(newFileName, .file pointlessText.toUTF8)]

/-- Settings with two texts that write no glob. -/
def globlessSettings : Settings :=
  ⟨{ ScanSettings.default with exclude := ["*.rs", "**a", "["] }, .default⟩

theorem directoryAt_pointless :
    (projectVolume pointlessEntries).DirectoryAt ["work"] pointlessEntries where
  names := List.forall_mem_singleton.mpr (by decide)
  stands := rfl

theorem isDirectory_pointless :
    (projectVolume pointlessEntries).isDirectory projectEnvironment.cwd "/work" = true := rfl

theorem refusesLanguages_pointless :
    RefusesLanguages (projectVolume pointlessEntries) projectEnvironment
      ⟨none, .markdown, none, []⟩ none
      ⟨"Failed to set up scanner", (RegistryError.invalidExtension "pyi").causes⟩ := by
  have hroot : ScanArguments.directory ⟨none, .markdown, none, []⟩ projectEnvironment =
      projectEnvironment.cwd := by
    decide +kernel
  have hparse : Settings.parse pointlessText = .ok pointlessSettings := by
    decide +kernel
  have hload : loadSettings (projectVolume pointlessEntries) projectEnvironment
      (SettingsSource.resolve (projectVolume pointlessEntries) projectEnvironment
        projectEnvironment.cwd none) = .ok pointlessSettings :=
    loadSettings_of_file directoryAt_pointless rfl rfl rfl hparse
  rw [RefusesLanguages, hroot]
  exact ⟨isDirectory_pointless, pointlessSettings, _, scanSettings_eq_ok _ hload rfl, rfl, rfl⟩

theorem setUp_fails_iff_work :
    GlobsAgree (projectVolume pointlessEntries) projectEnvironment "/work" globlessSettings ∧
      globlessSettings.check =
        .error (.unusable (.invalidGlob "**a" ⟨2, .recursiveWildcards⟩)) ∧
      (run (projectVolume pointlessEntries) projectEnvironment []).FailsSetUp := by
  obtain ⟨hagree, hfails⟩ := setUp_fails_iff (projectVolume pointlessEntries) projectEnvironment
  refine ⟨hagree "/work" globlessSettings (by decide) ?_ isDirectory_pointless ⟨_, rfl⟩, ?_, ?_⟩
  · have hpoints : ∀ extension ∈ globlessSettings.scan.ignoreExtensions,
        isExtension extension = true := by
      decide
    exact fun extension he => isExtension_iff.mp (hpoints extension he)
  · decide +kernel
  · refine (hfails []).mpr ⟨_, none, _, rfl, refusesLanguages_pointless, ?_⟩
    have ha : Invocation.ofArguments [] = .ok ⟨.scan ⟨none, .markdown, none, []⟩, none⟩ := rfl
    rw [run, ha]
    dsimp only
    rw [outcome_scan, refusesLanguages_pointless.scan_eq]

end Command

end CodeOutline
