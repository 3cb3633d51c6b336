import CodeOutline.Proofs.Report.Table
import CodeOutline.Proofs.Rule.Reading
import CodeOutline.Proofs.Scan.Accounts
import CodeOutline.Proofs.Scan.Spelling
import CodeOutline.Proofs.Settings
import CodeOutline.Proofs.Text.Blank

/-! # Signatures of a scan

Every file in a report has been extracted to signatures, the first of which are kept. A limit of
zero keeps none, and a scanner may be built with it, although settings that are checked never have
it. Arguments and results are collapsed, whatever pattern found them, but names are only trimmed.
-/

namespace CodeOutline

/-- Every file has a signature, and none has more of them than a limit. -/
def Report.Filled (r : Report) (limit : Nat) : Prop :=
  ∀ f ∈ r.files, 1 ≤ f.signatures.length ∧ f.signatures.length ≤ limit

namespace Scanner

variable {s : Scanner} {v : Volume} {env : Environment} {f : FileSummary} {sig : Signature}
  {path : RawText} {l : Language} {content : ByteArray}

/-! ## Files of a report -/

theorem findingIn_eq_summary (h : s.findingIn path l content = some (.summary f)) :
    ∃ signatures, s.registry.extract l (Utf8.replacedText content.data.toList) = .ok signatures ∧
      signatures ≠ [] ∧ f = .capped path l signatures s.settings.maxSignatures := by
  rw [findingIn] at h
  split at h
  · cases h
  · cases h
  · rename_i signatures hne he
    cases h
    exact ⟨signatures, he, hne, rfl⟩

/-- The signatures of a file in a report are the first ones that were extracted. -/
theorem exists_extract_of_mem_files (h : f ∈ (s.scan v env).files) :
    ∃ l content signatures, s.registry.extract l content = .ok signatures ∧ signatures ≠ [] ∧
      f.signatures = signatures.take s.settings.maxSignatures := by
  obtain ⟨e, _, he⟩ := List.mem_filterMap.mp (Finding.mem_filterMap_summary?.mp h)
  rw [examine] at he
  split at he
  · dsimp only at he
    split at he
    · cases he
    · unfold findingFor at he
      split at he
      · dsimp only at he
        split at he
        · cases he
        split at he
        · cases he
        · obtain ⟨signatures, hx, hne, rfl⟩ := findingIn_eq_summary he
          exact ⟨_, _, signatures, hx, hne, rfl⟩
      · cases he
      · cases he
  · cases he

theorem lineFeed_notMem_of_mem_files (hf : f ∈ (s.scan v env).files) (hs : sig ∈ f.signatures) :
    '\n' ∉ sig.arguments.toList ∧ '\n' ∉ sig.result.toList := by
  obtain ⟨l, content, signatures, hx, _, he⟩ := exists_extract_of_mem_files hf
  rw [he] at hs
  obtain ⟨rule, _, rfl⟩ := Registry.exists_rule_of_extract hx
  obtain ⟨m, _, hm⟩ := List.mem_filterMap.mp (List.mem_of_mem_take hs)
  obtain ⟨n, a, r, hr⟩ := Extraction.exists_readsFrom hm
  obtain ⟨_, rfl⟩ := Signature.ofTexts?_eq_some_iff.mp hr.signature
  have hc (t : String) : '\n' ∉ (Text.collapse t).toList := by
    rw [Text.collapse, String.toList_ofList, Text.mem_collapseChars (by decide)]
    exact fun h => by cases h.2
  exact ⟨hc a, hc r⟩

/-! ## Limits -/

theorem filled_of_pos (h : 0 < s.settings.maxSignatures) :
    (s.scan v env).Filled s.settings.maxSignatures := by
  intro f hf
  obtain ⟨l, content, signatures, _, hne, he⟩ := exists_extract_of_mem_files hf
  have hpos := List.length_pos_iff.mpr hne
  rw [he, List.length_take]
  omega

/-- Every file of a report has a signature, and none more than the limit, unless the limit is zero:
then files are reported with none. -/
theorem scan_filled_iff (s : Scanner) (v : Volume) (env : Environment) :
    (s.scan v env).Filled s.settings.maxSignatures ↔
      0 < s.settings.maxSignatures ∨ (s.scan v env).files = [] := by
  constructor
  · intro h
    refine (Nat.eq_zero_or_pos s.settings.maxSignatures).symm.imp_right fun hz => ?_
    refine List.eq_nil_iff_forall_not_mem.mpr fun f hf => ?_
    have := h f hf
    omega
  · rintro (h | h)
    · exact filled_of_pos h
    · intro f hf
      rw [h] at hf
      cases hf

theorem filled_of_check {settings : Settings} {root : RawText} (hc : settings.check = .ok ())
    (hs : ofSettings v env root settings = .ok s) :
    (s.scan v env).Filled s.settings.maxSignatures := by
  rw [ofSettings] at hs
  split at hs
  · obtain ⟨_, exclude, _, rfl⟩ := build_eq_ok_iff.mp hs
    exact filled_of_pos (Settings.maxSignatures_pos hc)
  · cases hs

/-! ## Directories with one file -/

theorem find_moduleVolume (content : String) :
    (moduleVolume content).find topEnvironment.cwd "/" =
      .ok ⟨[], (moduleVolume content).top, Volume.linkLimit⟩ := by
  have ht : Volume.Takes "/" := ⟨by decide, by decide, by decide⟩
  exact ht.find_eq_ok rfl

theorem files_moduleVolume {content : String} {n : Nat} (hr : s.root = "/")
    (hs : s.settings = { ScanSettings.default with maxSignatures := n }) :
    (s.scan (moduleVolume content) topEnvironment).files =
      ([⟨["a.py"], .file, .ok ⟨.file content.toUTF8, none⟩⟩].filterMap s.examine).filterMap
        Finding.summary? := by
  have hf : (moduleVolume content).find topEnvironment.cwd s.root =
      .ok ⟨[], (moduleVolume content).top, Volume.linkLimit⟩ := by
    rw [hr, find_moduleVolume]
  have hw : s.walk (moduleVolume content) ⟨[], (moduleVolume content).top, Volume.linkLimit⟩ =
      ⟨moduleVolume content, "/", ⟨[], (moduleVolume content).top, Volume.linkLimit⟩,
        { ScanSettings.default with maxSignatures := n }⟩ := by
    rw [walk, hr, hs]
  have hname : (RawText.ofText "a.py").shown ∉ ScanSettings.defaultIgnoreFiles := by
    decide +kernel
  have hextension : ∀ extension, Path.extension? "a.py" = some extension →
      extension ∉ ScanSettings.defaultIgnoreExtensions := by decide +kernel
  rw [scan, entries_of_shut hf rfl, hw]
  · rfl
  · rw [hs]
    rfl
  · rw [hw]
    rfl
  · rw [hw, List.forall_mem_singleton]
    exact Walk.leavesOut_eq_false.mpr ⟨fun h => (by cases h), fun _ => ⟨hname, hextension⟩⟩
  · rw [List.forall_mem_singleton]
    exact fun h => by cases h
  · exact List.pairwise_singleton _ _

theorem build_moduleVolume (content : String) (settings : ScanSettings)
    (hs : settings.exclude = []) (registry : Option Registry) :
    build (moduleVolume content) topEnvironment ⟨some "/", some settings, registry, []⟩ =
      .ok ⟨"/", settings, registry.getD .builtin, []⟩ := by
  have hd : (moduleVolume content).isDirectory topEnvironment.cwd "/" = true := by
    rw [Volume.isDirectory, find_moduleVolume]
    rfl
  have hj : Path.join topEnvironment.cwd "/" = "/" := rfl
  rw [build_eq_ok_iff]
  simp only [Option.getD_some, hj, hs, List.append_nil]
  exact ⟨hd, [], rfl, rfl⟩

/-- Nothing is kept of a file under a limit of zero, and yet it is reported. -/
theorem scan_filled_zero : ∃ s, build (moduleVolume "def f():\n") topEnvironment
      ⟨some "/", some { ScanSettings.default with maxSignatures := 0 }, none, []⟩ = .ok s ∧
    (s.scan (moduleVolume "def f():\n") topEnvironment).files = [⟨"a.py", .python, []⟩] ∧
      ¬ (s.scan (moduleVolume "def f():\n") topEnvironment).Filled 0 := by
  refine ⟨_, build_moduleVolume _ _ rfl none, ?_⟩
  have hfiles : ((⟨"/", { ScanSettings.default with maxSignatures := 0 }, .builtin, []⟩ :
      Scanner).scan (moduleVolume "def f():\n") topEnvironment).files =
        [⟨"a.py", .python, []⟩] := by
    rw [files_moduleVolume rfl rfl]
    decide +kernel
  refine ⟨hfiles, fun h => ?_⟩
  have := (h _ (hfiles ▸ List.mem_singleton_self _)).1
  cases this

/-! ## Tables -/

/-- The table of a scan has a well-formed row for exactly the signatures whose names have neither a
bar nor a line end. Patterns from settings may find other names. -/
theorem scan_rows_iff (s : Scanner) (v : Volume) (env : Environment)
    (hf : f ∈ (s.scan v env).files) (hs : sig ∈ f.signatures) :
    Report.Markdown.HasRow (s.scan v env).markdownText sig ↔
      '|' ∉ sig.name.toList ∧ '\n' ∉ sig.name.toList :=
  Report.Markdown.hasRow_iff hf hs (lineFeed_notMem_of_mem_files hf hs).1
    (lineFeed_notMem_of_mem_files hf hs).2

theorem scan_rows_iff_module :
    (loopScanner.scan (moduleVolume "def f(a):\n") topEnvironment).files =
        [⟨"a.py", .python, [⟨"f", "a", ""⟩]⟩] ∧
      Report.Markdown.HasRow
        (loopScanner.scan (moduleVolume "def f(a):\n") topEnvironment).markdownText
        ⟨"f", "a", ""⟩ := by
  have hfiles : (loopScanner.scan (moduleVolume "def f(a):\n") topEnvironment).files =
      [⟨"a.py", .python, [⟨"f", "a", ""⟩]⟩] := by
    rw [files_moduleVolume rfl rfl]
    decide +kernel
  have hf : ⟨"a.py", .python, [⟨"f", "a", ""⟩]⟩ ∈
      (loopScanner.scan (moduleVolume "def f(a):\n") topEnvironment).files :=
    hfiles ▸ List.mem_singleton_self _
  exact ⟨hfiles, (scan_rows_iff loopScanner _ topEnvironment hf
    (List.mem_singleton_self _)).mpr (by decide)⟩

/-- Settings with a pattern whose names go up to a parenthesis. -/
def wideSettings : LanguageSettings where
  extensions := .empty
  patterns := .ofList [("python", "def (?P<name>[^(]+)\\((?P<args>[^)]*)\\)")]

theorem exists_wideRegistry : ∃ registry, Registry.ofSettings wideSettings = .ok registry ∧
    ((⟨"/", .default, registry, []⟩ : Scanner).scan (moduleVolume "def a|b(x):\n")
      topEnvironment).files = [⟨"a.py", .python, [⟨"a|b", "x", ""⟩]⟩] := by
  have hs : (Registry.ofSettings wideSettings).toOption.any (fun registry =>
      ([(⟨["a.py"], .file, .ok ⟨.file "def a|b(x):\n".toUTF8, none⟩⟩ : Entry)].filterMap
        (⟨"/", .default, registry, []⟩ : Scanner).examine).filterMap Finding.summary? ==
          [⟨"a.py", .python, [⟨"a|b", "x", ""⟩]⟩]) = true := by
    decide +kernel
  cases hr : Registry.ofSettings wideSettings with
  | error error =>
    rw [hr] at hs
    cases hs
  | ok registry =>
    rw [hr] at hs
    refine ⟨registry, rfl, ?_⟩
    rw [files_moduleVolume rfl rfl]
    exact beq_iff_eq.mp hs

/-- A bar in a name breaks the row. -/
theorem scan_rows_bar : ∃ s, ofSettings (moduleVolume "def a|b(x):\n") topEnvironment "/"
      ⟨.default, wideSettings⟩ = .ok s ∧
    (s.scan (moduleVolume "def a|b(x):\n") topEnvironment).files =
        [⟨"a.py", .python, [⟨"a|b", "x", ""⟩]⟩] ∧
      ¬ Report.Markdown.HasRow
        (s.scan (moduleVolume "def a|b(x):\n") topEnvironment).markdownText
        ⟨"a|b", "x", ""⟩ := by
  obtain ⟨registry, hr, hfiles⟩ := exists_wideRegistry
  refine ⟨⟨"/", .default, registry, []⟩, ?_, hfiles, ?_⟩
  · rw [ofSettings, hr]
    exact build_moduleVolume _ _ rfl (some registry)
  · rintro ⟨_, hrow⟩
    exact (Report.Markdown.isRowOf_iff _).mp hrow (by decide)

end Scanner

end CodeOutline
