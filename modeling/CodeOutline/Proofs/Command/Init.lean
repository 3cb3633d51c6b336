import CodeOutline.Proofs.Command.Effect
import CodeOutline.Proofs.Command.Template
import CodeOutline.Proofs.Scan.Addition
import CodeOutline.Proofs.Volume.Put

/-! # A new settings file

The settings file that is written for a project without one says the default settings. So the next
scan reports what the scan before it did, with the settings file in the listing and without the
generated files.
-/

namespace CodeOutline.Command

variable {v : Volume} {env : Environment} {place : List RawText}
  {entries : List (RawText × Node)} {settings : Settings} {root : RawText} {text : String}

/-! ## Runs -/

/-- The arguments of a plain scan. -/
def jsonScan : ScanArguments := ⟨none, .json, none, []⟩

/-- A run for JSON ends well and prints a text, which writes the report of a scanner. -/
structure Prints (v : Volume) (env : Environment) (s : Scanner) (text : String) : Prop where
  run_eq : run v env ["--format", "json"] = ⟨0, text, "", v⟩
  scan_eq : scan v env jsonScan none = .ok (s.scan v env)
  text_eq : (s.scan v env).jsonText = .ok text

theorem run_json (v : Volume) (env : Environment) :
    run v env ["--format", "json"] =
      match scan v env jsonScan none with
      | .ok r => (Format.json.write r).outcome v
      | .error failure => ⟨1, "", failure.text, v⟩ := by
  have ha : Invocation.ofArguments ["--format", "json"] = .ok ⟨.scan jsonScan, none⟩ := rfl
  rw [run, ha]
  exact outcome_scan v env jsonScan none

theorem prints_of_jsonText {s : Scanner} (h : scan v env jsonScan none = .ok (s.scan v env))
    (ht : (s.scan v env).jsonText = .ok text) : Prints v env s text := by
  refine ⟨?_, h, ht⟩
  have hf : Format.json.text (s.scan v env) = .ok text := ht
  rw [run_json, h]
  dsimp only
  rw [outcome_write, hf]

theorem exists_of_run_json (h : (run v env ["--format", "json"]).code = 0) :
    ∃ r text, scan v env jsonScan none = .ok r ∧ r.jsonText = .ok text := by
  rw [run_json] at h
  cases hs : scan v env jsonScan none with
  | error failure =>
    rw [hs] at h
    cases h
  | ok r =>
    rw [hs] at h
    dsimp only at h
    rw [outcome_write] at h
    cases ht : r.jsonText with
    | ok text => exact ⟨r, text, rfl, ht⟩
    | error start =>
      have hf : Format.json.text r = .error start := ht
      rw [hf] at h
      cases h

theorem run_init (v : Volume) (env : Environment) :
    run v env ["init"] = (init env false).outcome v := by
  have ha : Invocation.ofArguments ["init"] = .ok ⟨.init false, none⟩ := rfl
  rw [run, ha]
  rfl

/-! ## Scans of the working directory -/

theorem apply_nothing (f : Format) (s : Settings) :
    ScanArguments.apply ⟨none, f, none, []⟩ s = s := by
  rw [ScanArguments.apply, List.append_nil]
  rfl

/-- The scanner of a directory that excludes nothing. -/
def plainScanner (root : RawText) (settings : ScanSettings) : Scanner :=
  ⟨root, { settings with exclude := [] }, .builtin, []⟩

theorem scanSettings_eq_ok (f : Format)
    (hs : loadSettings v env (SettingsSource.resolve v env root none) = .ok settings)
    (hc : settings.check = .ok ()) :
    scanSettings v env root ⟨none, f, none, []⟩ none = .ok settings := by
  rw [scanSettings, hs]
  dsimp only [bind, Except.bind]
  rw [apply_nothing, hc]
  rfl

theorem ofSettings_eq_build (hl : settings.languages = .default) :
    Scanner.ofSettings v env root settings =
      Scanner.build v env ⟨some root, some settings.scan, some .builtin, []⟩ := by
  have hr : Registry.ofSettings .default = .ok .builtin := rfl
  rw [Scanner.ofSettings, hl, hr]

theorem exists_scan_eq_ok (hcwd : env.cwd = Path.ofNames place)
    (hn : ∀ name ∈ place, ProperName name) (hdir : v.isDirectory env.cwd env.cwd = true)
    (hs : loadSettings v env (SettingsSource.resolve v env env.cwd none) = .ok settings)
    (hc : settings.check = .ok ()) (hl : settings.languages = .default)
    (hg : ∀ text ∈ settings.scan.exclude, Glob.IsWritten text) :
    ∃ s, Scanner.ofSettings v env env.cwd settings = .ok s ∧
      scan v env jsonScan none = .ok (s.scan v env) ∧
      s.scan v env = ((plainScanner env.cwd settings.scan).scan v env).without
        (Glob.matchesAny settings.scan.exclude) ∧
      s.items v env = (plainScanner env.cwd settings.scan).items v env := by
  have hroot : Path.absolute env.cwd "." = env.cwd := by
    rw [hcwd]
    exact Path.absolute_point hn
  have hjoin : Path.join env.cwd env.cwd = env.cwd := by
    rw [hcwd]
    exact Path.join_of_isAbsolute _ (Path.isAbsolute_cons _)
  have hd : v.isDirectory env.cwd (Path.join env.cwd ((some env.cwd).getD ".")) = true := by
    rw [Option.getD_some, hjoin]
    exact hdir
  have hg' : ∀ text ∈ settings.scan.exclude ++ [], Glob.IsWritten text := by
    rwa [List.append_nil]
  obtain ⟨s, hbuild, hplain, hexcluded⟩ :=
    Scanner.build_eq_ok settings.scan (some Registry.builtin) hd hg'
  have hbuild : Scanner.ofSettings v env env.cwd settings = .ok s :=
    (ofSettings_eq_build hl).trans hbuild
  rw [Option.getD_some, hjoin] at hplain
  rw [List.append_nil] at hexcluded
  have hplain : s.unrestricted = plainScanner env.cwd settings.scan := hplain
  refine ⟨s, hbuild, ?_, ?_, ?_⟩
  · have hsettings := scanSettings_eq_ok .json hs hc
    rw [scan, jsonScan]
    simp only [Option.getD_none, hroot, hdir, hsettings, bind, Except.bind, pure, Except.pure,
      hbuild]
    rfl
  · rw [Scanner.scan_eq_without, hplain, hexcluded]
  · rw [Scanner.items, Scanner.items, ← hplain, Scanner.entries_unrestricted]

/-! ## Projects without settings -/

/-- A project whose directory is the working directory, with no links in it and no settings file
for it. -/
structure BareProject (v : Volume) (env : Environment) (place : List RawText)
    (entries : List (RawText × Node)) : Prop where
  proper : v.Proper
  /-- The working directory is known by the names on the way to it, none of them a link. -/
  cwd : env.cwd = Path.ofNames place
  stands : v.top.at? place = some (.directory entries)
  unlinked : (Node.directory entries).Unlinked
  noSettings : entries.lookup newFileName = none
  noHiddenSettings : ∀ content, entries.lookup (".docscan.toml" : RawText) ≠ some (.file content)
  noUserSettings : ∀ directory, SettingsSource.userDirectory? env = some directory →
    v.isFile env.cwd (Path.join directory SettingsSource.nameOfUser) = false

theorem properName_newFileName : ProperName newFileName := by
  decide

/-- The file that is written. -/
def newFile : Node := .file template.toUTF8

namespace BareProject

theorem directoryAt (h : BareProject v env place entries) : v.DirectoryAt place entries :=
  ⟨h.proper.properName_of_at? h.stands, h.stands⟩

theorem absolute_point (h : BareProject v env place entries) :
    Path.absolute env.cwd "." = env.cwd := by
  rw [h.cwd]
  exact Path.absolute_point h.directoryAt.names

/-- There is no report where the working directory cannot be looked up. -/
theorem isDirectory_cwd (h : BareProject v env place entries)
    (hjson : (run v env ["--format", "json"]).code = 0) : v.isDirectory env.cwd env.cwd = true := by
  obtain ⟨r, _, hr, _⟩ := exists_of_run_json hjson
  cases hd : v.isDirectory env.cwd env.cwd with
  | true => rfl
  | false =>
    rw [scan, jsonScan] at hr
    simp only [Option.getD_none, h.absolute_point, hd] at hr
    cases hr

theorem loadSettings_before (h : BareProject v env place entries) :
    loadSettings v env (SettingsSource.resolve v env env.cwd none) = .ok .default := by
  have hnone : (SettingsSource.namesInDirectory.map (Path.join env.cwd)).find?
      (v.isFile env.cwd) = none := by
    rw [SettingsSource.namesInDirectory, List.find?_eq_none, List.forall_mem_map,
      List.forall_mem_cons, List.forall_mem_singleton, h.cwd, Bool.not_eq_true, Bool.not_eq_true]
    refine ⟨?_, ?_⟩
    · refine h.directoryAt.isFile_join_eq_false properName_newFileName ?_ ?_ _
      · intro content hc
        rw [h.noSettings] at hc
        cases hc
      · intro target hc
        rw [h.noSettings] at hc
        cases hc
    · refine h.directoryAt.isFile_join_eq_false (by decide) h.noHiddenSettings ?_ _
      intro target hc
      exact (h.unlinked.child hc).ne_link target rfl
  have hr : SettingsSource.resolve v env env.cwd none = .defaults := by
    rw [SettingsSource.resolve, hnone]
    cases hu : SettingsSource.userDirectory? env with
    | none => rfl
    | some directory =>
      dsimp only [Option.map_some]
      rw [h.noUserSettings directory hu]
      rfl
  rw [hr]
  rfl

theorem run_init_eq (h : BareProject v env place entries) (hinit : (run v env ["init"]).code = 0) :
    run v env ["init"] = ⟨0, initText, "", v.put (place ++ [newFileName]) newFile⟩ := by
  have hhas : v.has env.cwd newFileName = false := by
    rw [h.cwd]
    exact h.directoryAt.has_eq_false properName_newFileName takes_newFileName h.noSettings
  have hwrite : v.write env.cwd newFileName template.toUTF8 =
      v.fill (place ++ [newFileName]) template.toUTF8 := by
    rw [h.cwd]
    exact h.directoryAt.write_eq properName_newFileName takes_newFileName h.noSettings _
  rw [run_init, outcome_init, hhas, hwrite] at hinit ⊢
  cases hfill : v.fill (place ++ [newFileName]) template.toUTF8 with
  | mk after error? =>
    rw [hfill] at hinit
    cases error? with
    | some error => cases hinit
    | none => rw [Volume.eq_put_of_fill hfill, newFile]; rfl

end BareProject

theorem ofFile_eq_parse {path : RawText} (h : v.readText env.cwd path = .ok text) :
    Settings.ofFile v env path = Settings.parse text := by
  rw [Settings.ofFile, h]

theorem loadSettings_of_file (h : v.DirectoryAt place entries)
    (hcwd : env.cwd = Path.ofNames place)
    (hf : entries.lookup newFileName = some (.file text.toUTF8)) {content : ByteArray}
    (hreads : v.read env.cwd (Path.join env.cwd newFileName) = .ok content)
    (hp : Settings.parse text = .ok settings) :
    loadSettings v env (SettingsSource.resolve v env env.cwd none) = .ok settings := by
  have ht := Volume.takes_of_read hreads
  rw [hcwd] at ht
  have hfile : v.isFile env.cwd (Path.join env.cwd "docscan.toml") = true := by
    rw [hcwd]
    exact h.isFile_join properName_newFileName ht hf _
  have hsource : SettingsSource.resolve v env env.cwd none =
      .inDirectory (Path.join env.cwd newFileName) := by
    rw [SettingsSource.resolve, SettingsSource.namesInDirectory, List.map_cons,
      List.find?_cons_of_pos hfile]
    rfl
  have hread : v.readText env.cwd (Path.join env.cwd newFileName) = .ok text := by
    obtain rfl := h.eq_of_read_join properName_newFileName ht hf (hcwd ▸ hreads)
    exact Volume.readText_eq_ok hreads
  have hs : Settings.ofFile v env (Path.join env.cwd newFileName) = .ok settings :=
    (ofFile_eq_parse hread).trans hp
  rw [hsource, loadSettings]
  dsimp only [SettingsSource.path?]
  rw [hs]

namespace BareProject

theorem find_cwd (h : BareProject v env place entries) (ht : Volume.Takes env.cwd) :
    v.find env.cwd env.cwd = .ok ⟨place, .directory entries, Volume.linkLimit⟩ := by
  have hf := h.directoryAt.find_self (h.cwd ▸ ht) env.cwd
  rwa [← h.cwd] at hf

theorem refusal_eq_none (h : BareProject v env place entries) (ht : Volume.Takes env.cwd)
    (hlists : v.Opens env.cwd env.cwd []) : v.refusal .read place = none := by
  have hr := ((Volume.opens_iff h.proper (h.find_cwd ht) rfl).mp hlists).2
  rwa [List.append_nil] at hr

theorem find_cwd_put (h : BareProject v env place entries) (ht : Volume.Takes env.cwd) :
    (v.put (place ++ [newFileName]) newFile).find env.cwd env.cwd =
      .ok ⟨place, .directory (Node.setEntry newFileName newFile entries), Volume.linkLimit⟩ := by
  have hf := (h.directoryAt.put newFileName template.toUTF8).find_self (h.cwd ▸ ht) env.cwd
  rwa [← h.cwd] at hf

/-- Nothing speaks against listing the new file, and it is of no known language. -/
theorem gains (h : BareProject v env place entries) (ht : Volume.Takes env.cwd)
    (hlists : v.refusal .read place = none) :
    ((plainScanner env.cwd .default).scan v env).Gains newFileName
      ((plainScanner env.cwd .default).scan (v.put (place ++ [newFileName]) newFile) env)
      ((plainScanner env.cwd .default).items v env)
      ((plainScanner env.cwd .default).items (v.put (place ++ [newFileName]) newFile) env) := by
  have hext : Path.extension? newFileName = some ".toml" := by
    decide +kernel
  have hfile : newFileName.shown ∉ ScanSettings.defaultIgnoreFiles := by
    decide +kernel
  have hlisted : ".toml" ∉ ScanSettings.defaultIgnoreExtensions := by
    decide
  refine Scanner.scan_gains rfl (h.proper.at? h.stands) h.unlinked properName_newFileName
    h.noSettings hfile ?_ (h.find_cwd ht) rfl (h.find_cwd_put ht) rfl rfl rfl hlists ?_
  · intro extension he
    rw [hext] at he
    cases he
    exact hlisted
  · rw [Scanner.languageOf?, hext]
    rfl

theorem exists_gains (h : BareProject v env place entries)
    (hcwd : v.isDirectory env.cwd env.cwd = true) (hlists : v.Opens env.cwd env.cwd [])
    {content : ByteArray} (hreads : (v.put (place ++ [newFileName]) newFile).read env.cwd
      (Path.join env.cwd newFileName) = .ok content) :
    ∃ s s' : Scanner, Scanner.ofSettings v env env.cwd .default = .ok s ∧
      scan v env jsonScan none = .ok (s.scan v env) ∧
      scan (v.put (place ++ [newFileName]) newFile) env jsonScan none =
        .ok (s'.scan (v.put (place ++ [newFileName]) newFile) env) ∧
      ((s.scan v env).without (Glob.matchesAny [generatedGlob])).Gains newFileName
        (s'.scan (v.put (place ++ [newFileName]) newFile) env) (s.items v env)
        (s'.items (v.put (place ++ [newFileName]) newFile) env) := by
  have ht := Volume.takes_of_isDirectory hcwd
  have hd := h.directoryAt.put newFileName template.toUTF8
  have hnew : (Node.setEntry newFileName newFile entries).lookup newFileName = some newFile := by
    rw [Node.lookup_setEntry, if_pos rfl]
  have hcwd' : (v.put (place ++ [newFileName]) newFile).isDirectory env.cwd env.cwd = true := by
    rw [Volume.isDirectory, h.find_cwd_put ht]
    rfl
  have hglob : ∀ text ∈ [generatedGlob], Glob.IsWritten text :=
    List.forall_mem_singleton.mpr ⟨_, rfl⟩
  have hnone : (Glob.matchesAny Settings.default.scan.exclude) = fun _ => false :=
    Glob.matchesAny_nil
  obtain ⟨s, hs, hscan, hreport, hitems⟩ :=
    exists_scan_eq_ok h.cwd hd.names hcwd h.loadSettings_before rfl rfl (List.forall_mem_nil _)
  obtain ⟨s', _, hscan', hreport', hitems'⟩ := exists_scan_eq_ok h.cwd hd.names hcwd'
    (loadSettings_of_file hd h.cwd hnew hreads parse_template) rfl rfl hglob
  rw [hnone, Report.without_none] at hreport
  refine ⟨s, s', hs, hscan, hscan', ?_⟩
  rw [hreport, hreport', hitems, hitems']
  exact (h.gains ht (h.refusal_eq_none ht hlists)).without _

end BareProject

/-- A new settings file for a project without one changes the report of a scan in two ways: the file
is listed, and generated files are no longer read. -/
theorem run_init_gains (h : BareProject v env place entries) (hlists : v.Opens env.cwd env.cwd [])
    (hjson : (run v env ["--format", "json"]).code = 0)
    (hinit : (run v env ["init"]).code = 0)
    (hreads : ∃ content, (run v env ["init"]).volume.read env.cwd
      (Path.join env.cwd newFileName) = .ok content) :
    ∃ (after : Volume) (s s' : Scanner) (text text' : String),
      run v env ["init"] = ⟨0, initText, "", after⟩ ∧
      Scanner.ofSettings v env env.cwd .default = .ok s ∧ Prints v env s text ∧
      Prints after env s' text' ∧
      ((s.scan v env).without (Glob.matchesAny [generatedGlob])).Gains newFileName
        (s'.scan after env) (s.items v env) (s'.items after env) := by
  obtain ⟨content, hreads⟩ := hreads
  rw [h.run_init_eq hinit] at hreads
  obtain ⟨s, s', hs, hscan, hscan', hgains⟩ :=
    h.exists_gains (h.isDirectory_cwd hjson) hlists hreads
  obtain ⟨r, text, hr, htext⟩ := exists_of_run_json hjson
  obtain rfl := Except.ok.inj (hscan.symm.trans hr)
  obtain ⟨text', htext'⟩ :=
    hgains.exists_jsonText (Report.exists_jsonText_without ⟨text, htext⟩ _)
  exact ⟨_, s, s', text, text', h.run_init_eq hinit, hs, prints_of_jsonText hscan htext,
    prints_of_jsonText hscan' htext', hgains⟩

/-! ## Projects -/

/-- A project beside the home directory of its user. -/
def projectVolume (entries : List (RawText × Node)) : Volume where
  top := .directory [("home", .directory []), ("work", .directory entries)]

def projectEnvironment : Environment :=
  ⟨"/work", some "/home", none, none⟩

theorem bareProject_of (refusal : Access → List RawText → Option FileError)
    (hn : Node.Proper (.directory entries)) (hu : (Node.directory entries).Unlinked)
    (hnew : entries.lookup newFileName = none)
    (hhidden : entries.lookup (".docscan.toml" : RawText) = none) :
    BareProject { projectVolume entries with refusal } projectEnvironment ["work"] entries where
  proper := .directory _ (show [("home" : RawText), "work"].Nodup by decide)
    (List.forall_mem_cons.mpr ⟨show ProperName "home" by decide,
      List.forall_mem_singleton.mpr (show ProperName "work" by decide)⟩)
    (List.forall_mem_cons.mpr ⟨.directory _ (by decide) (by decide) (by simp),
      List.forall_mem_singleton.mpr hn⟩)
  cwd := rfl
  stands := rfl
  unlinked := hu
  noSettings := hnew
  noHiddenSettings content h := by
    rw [hhidden] at h
    cases h
  noUserSettings := by
    rintro directory ⟨⟩
    rfl

/-- A file that is read and one that is generated. -/
def sampleEntries : List (RawText × Node) :=
  [("a.py", .file "def a(): pass\n".toUTF8),
    ("generated", .directory [("b.py", .file "def b(): pass\n".toUTF8)])]

theorem sampleEntries_proper : Node.Proper (.directory sampleEntries) := by
  have hg : Node.Proper (.directory [("b.py", .file "def b(): pass\n".toUTF8)]) :=
    .directory _ (by decide) (by decide) (List.forall_mem_singleton.mpr (.file _))
  exact .directory _ (by decide) (by decide)
    (List.forall_mem_cons.mpr ⟨.file _, List.forall_mem_singleton.mpr hg⟩)

theorem sampleEntries_unlinked : (Node.directory sampleEntries).Unlinked :=
  Node.unlinked_directory (List.forall_mem_cons.mpr ⟨Node.unlinked_file _,
    List.forall_mem_singleton.mpr (Node.unlinked_directory
      (List.forall_mem_singleton.mpr (Node.unlinked_file _)))⟩)

theorem bareProject_sample :
    BareProject (projectVolume sampleEntries) projectEnvironment ["work"] sampleEntries :=
  bareProject_of (fun _ _ => none) sampleEntries_proper sampleEntries_unlinked rfl rfl

theorem entries_sample :
    (plainScanner "/work" .default).entries (projectVolume sampleEntries) projectEnvironment =
      [⟨["a.py"], .file, .ok ⟨.file "def a(): pass\n".toUTF8, none⟩⟩,
        ⟨["generated"], .directory,
          .ok ⟨.directory [("b.py", .file "def b(): pass\n".toUTF8)], none⟩⟩,
        ⟨["generated", "b.py"], .file, .ok ⟨.file "def b(): pass\n".toUTF8, none⟩⟩] := by
  let base : Found := ⟨["work"], .directory sampleEntries, Volume.linkLimit⟩
  let w := (plainScanner "/work" .default).walk (projectVolume sampleEntries) base
  have hf : (projectVolume sampleEntries).find projectEnvironment.cwd
      (plainScanner "/work" .default).root = .ok base := rfl
  have hfile (names : List RawText) (content : ByteArray) :
      w.below .empty names (.file content) = [] := Walk.below_eq_nil nofun
  have hg : w.below .empty ["generated"]
      (.directory [("b.py", .file "def b(): pass\n".toUTF8)]) =
        [w.entryFor ["generated"] ("b.py", .file "def b(): pass\n".toUTF8)] := by
    rw [Walk.below_of_pairwise rfl, List.flatMap_singleton, hfile] <;> decide +kernel
  rw [Scanner.entries_of_find hf, Walk.entries_of_pairwise rfl rfl]
  · change w.entryFor [] ("a.py", _) :: w.below .empty ["a.py"] (.file _) ++
      (w.entryFor [] ("generated", _) :: w.below .empty ["generated"] (.directory _) ++ []) = _
    rw [hfile, hg]
    rfl
  all_goals decide +kernel

theorem run_json_sample :
    (run (projectVolume sampleEntries) projectEnvironment ["--format", "json"]).code = 0 := by
  obtain ⟨s, _, hscan, hreport, _⟩ := exists_scan_eq_ok bareProject_sample.cwd
    bareProject_sample.directoryAt.names rfl bareProject_sample.loadSettings_before rfl rfl nofun
  have ht : ∃ text, (s.scan (projectVolume sampleEntries) projectEnvironment).jsonText =
      .ok text := by
    rw [hreport]
    refine Report.exists_jsonText_without (Report.exists_jsonText_iff.mpr ?_) _
    have he : (plainScanner projectEnvironment.cwd Settings.default.scan).entries
      (projectVolume sampleEntries) projectEnvironment = _ := entries_sample
    rw [Scanner.scan, he]
    decide +kernel
  obtain ⟨text, ht⟩ := ht
  rw [(prints_of_jsonText hscan ht).run_eq]

theorem run_init_sample :
    (run (projectVolume sampleEntries) projectEnvironment ["init"]).code = 0 := by
  decide +kernel

theorem run_init_gains_sample :
    (BareProject (projectVolume sampleEntries) projectEnvironment ["work"] sampleEntries ∧
      (projectVolume sampleEntries).Opens projectEnvironment.cwd projectEnvironment.cwd [] ∧
      (run (projectVolume sampleEntries) projectEnvironment ["--format", "json"]).code = 0 ∧
      (run (projectVolume sampleEntries) projectEnvironment ["init"]).code = 0 ∧
      ∃ content, (run (projectVolume sampleEntries) projectEnvironment ["init"]).volume.read
        projectEnvironment.cwd (Path.join projectEnvironment.cwd newFileName) = .ok content) ∧
      ∃ (after : Volume) (s s' : Scanner) (text text' : String),
        run (projectVolume sampleEntries) projectEnvironment ["init"] =
          ⟨0, initText, "", after⟩ ∧
        Scanner.ofSettings (projectVolume sampleEntries) projectEnvironment projectEnvironment.cwd
          .default = .ok s ∧
        Prints (projectVolume sampleEntries) projectEnvironment s text ∧
        Prints after projectEnvironment s' text' ∧
        ((s.scan (projectVolume sampleEntries) projectEnvironment).without
          (Glob.matchesAny [generatedGlob])).Gains newFileName (s'.scan after projectEnvironment)
            (s.items (projectVolume sampleEntries) projectEnvironment)
            (s'.items after projectEnvironment) := by
  have hlists : (projectVolume sampleEntries).Opens projectEnvironment.cwd
      projectEnvironment.cwd [] := ⟨_, rfl⟩
  have hreads : ∃ content, (run (projectVolume sampleEntries) projectEnvironment
      ["init"]).volume.read projectEnvironment.cwd
        (Path.join projectEnvironment.cwd newFileName) = .ok content := by
    rw [bareProject_sample.run_init_eq run_init_sample]
    exact ⟨_, rfl⟩
  exact ⟨⟨bareProject_sample, hlists, run_json_sample, run_init_sample, hreads⟩,
    run_init_gains bareProject_sample hlists run_json_sample run_init_sample hreads⟩

/-- A file with a function, whose name is no text. -/
def rawEntries : List (RawText × Node) :=
  [(⟨[0xFF, 0x2E, 0x70, 0x79]⟩, .file "def a(): pass\n".toUTF8)]

/-- An empty project with a place that is not to be read. -/
def lockedProject (locked : List RawText) : Volume :=
  { projectVolume [] with
    refusal := fun access place => if access = .read ∧ place = locked then some .denied else none }

theorem bareProject_raw :
    BareProject (projectVolume rawEntries) projectEnvironment ["work"] rawEntries :=
  bareProject_of (fun _ _ => none)
    (.directory _ (by decide) (by decide) (List.forall_mem_singleton.mpr (.file _)))
    (Node.unlinked_directory (List.forall_mem_singleton.mpr (Node.unlinked_file _))) rfl rfl

theorem bareProject_locked (locked : List RawText) :
    BareProject (lockedProject locked) projectEnvironment ["work"] [] :=
  bareProject_of _ (.directory _ (by decide) (by decide) (by simp))
    (Node.unlinked_directory (by simp)) rfl rfl

theorem run_json_raw :
    (run (run (projectVolume rawEntries) projectEnvironment ["init"]).volume projectEnvironment
      ["--format", "json"]).code ≠ 0 := by
  have hinit : (run (projectVolume rawEntries) projectEnvironment ["init"]).code = 0 := by
    decide +kernel
  let plain : Scanner := ⟨"/work", .default, .builtin, []⟩
  have hf : (projectVolume rawEntries).find projectEnvironment.cwd plain.root =
      .ok ⟨["work"], .directory rawEntries, Volume.linkLimit⟩ := rfl
  have hplain : Scanner.ofSettings (projectVolume rawEntries) projectEnvironment
      projectEnvironment.cwd .default = .ok plain := rfl
  obtain ⟨s, s', hs, _, hscan, hgains⟩ := bareProject_raw.exists_gains rfl ⟨_, rfl⟩ rfl
  obtain rfl := Except.ok.inj (hplain.symm.trans hs)
  rw [bareProject_raw.run_init_eq hinit]
  intro hjson
  obtain ⟨r, text, hr, htext⟩ := exists_of_run_json hjson
  obtain rfl := Except.ok.inj (hscan.symm.trans hr)
  obtain ⟨_, hfiles, _⟩ := Report.exists_jsonText_iff.mp ⟨text, htext⟩
  rw [hgains.files, Scanner.scan, Scanner.entries_of_shut hf rfl rfl] at hfiles
  · exact absurd hfiles (by decide +kernel)
  all_goals decide +kernel

theorem exists_scan_unlisted : ∃ r, scan ((lockedProject ["work"]).put ["work", newFileName] newFile)
    projectEnvironment jsonScan none = .ok r ∧ r.tree = [] := by
  have h := bareProject_locked ["work"]
  have hd := h.directoryAt.put newFileName template.toUTF8
  have hnew : (Node.setEntry newFileName newFile []).lookup newFileName = some newFile := rfl
  have hreads : ((lockedProject ["work"]).put ["work", newFileName] newFile).read
    projectEnvironment.cwd (Path.join projectEnvironment.cwd newFileName) =
      .ok template.toUTF8 := rfl
  have hf : ((lockedProject ["work"]).put ["work", newFileName] newFile).find
    projectEnvironment.cwd "/work" = .ok ⟨["work"], .directory [(newFileName, newFile)],
      Volume.linkLimit⟩ := rfl
  obtain ⟨s, _, hscan, _, hitems⟩ := exists_scan_eq_ok h.cwd hd.names rfl
    (loadSettings_of_file hd h.cwd hnew hreads parse_template) rfl rfl
      (List.forall_mem_singleton.mpr ⟨_, rfl⟩)
  refine ⟨_, hscan, ?_⟩
  rw [Scanner.tree_eq, hitems, Scanner.items, Scanner.entries_of_find hf, Walk.entries,
    Walk.below_eq_nil fun _ => rfl]
  rfl

/-- A report is not printed if the path of a file is no text or the new settings file cannot be
read, and it does not show the file if the directory cannot be listed. -/
theorem run_init_gains_not :
    (BareProject (projectVolume rawEntries) projectEnvironment ["work"] rawEntries ∧
      (run (projectVolume rawEntries) projectEnvironment ["init"]).code = 0 ∧
      (run (run (projectVolume rawEntries) projectEnvironment ["init"]).volume projectEnvironment
        ["--format", "json"]).code ≠ 0) ∧
    (BareProject (lockedProject ["work", newFileName]) projectEnvironment ["work"] [] ∧
      (run (lockedProject ["work", newFileName]) projectEnvironment ["init"]).code = 0 ∧
      (run (run (lockedProject ["work", newFileName]) projectEnvironment ["init"]).volume
        projectEnvironment ["--format", "json"]).code ≠ 0) ∧
    BareProject (lockedProject ["work"]) projectEnvironment ["work"] [] ∧
      (run (lockedProject ["work"]) projectEnvironment ["init"]).code = 0 ∧
      ∃ r, scan (run (lockedProject ["work"]) projectEnvironment ["init"]).volume
        projectEnvironment jsonScan none = .ok r ∧ r.tree = [] := by
  have hinit : (run (lockedProject ["work"]) projectEnvironment ["init"]).code = 0 := by
    decide +kernel
  refine ⟨⟨bareProject_raw, ?_, run_json_raw⟩, ⟨bareProject_locked _, ?_, ?_⟩,
    bareProject_locked _, ?_, ?_⟩
  · decide +kernel
  · decide +kernel
  · decide +kernel
  · exact hinit
  · rw [(bareProject_locked ["work"]).run_init_eq hinit]
    exact exists_scan_unlisted

end CodeOutline.Command
