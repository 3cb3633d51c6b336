import CodeOutline.Proofs.Registry.Overlay
import CodeOutline.Proofs.Report.Compact
import CodeOutline.Proofs.Rule.Normal
import CodeOutline.Proofs.Scan.Signatures

/-! # Scans line by line

The names that the built-in patterns capture have no blanks, and the other parts of a signature are
collapsed. So if no pattern is replaced, a line of a compact report can only be broken by the name
of a file or of a directory.
-/

namespace CodeOutline.Scanner

/-- The names of all that stands below the directory of a scanner are one line each. -/
def OneLineNames (s : Scanner) (v : Volume) (env : Environment) : Prop :=
  ∀ names, (v.standing? env.cwd s.root names).isSome → ∀ name ∈ names, 10 ∉ name.bytes

variable {s : Scanner} {v : Volume} {env : Environment} {f : FileSummary} {sig : Signature}
  {languages : LanguageSettings}

theorem exists_standing_of_mem_files (hv : v.Proper) (h : f ∈ (s.scan v env).files) :
    ∃ names, (v.standing? env.cwd s.root names).isSome ∧ f.path = Path.ofParts names := by
  obtain ⟨e, he, hf⟩ := List.mem_filterMap.mp (Finding.mem_filterMap_summary?.mp h)
  obtain ⟨base, hb, hlists⟩ := lists_of_mem_entries hv he
  exact ⟨e.names, (Shows.of_lists hv hb hlists).stands, path_of_examine hf⟩

theorem lineFeed_notMem_path (hv : v.Proper) (hn : s.OneLineNames v env)
    (h : f ∈ (s.scan v env).files) : '\n' ∉ f.path.shown.toList := by
  obtain ⟨names, hs, hp⟩ := exists_standing_of_mem_files hv h
  rw [hp, RawText.lineFeed_mem_shown]
  exact Path.notMem_ofParts (by decide) (hn names hs)

/-- The names of signatures are one line each, if no pattern is replaced. -/
theorem lineFeed_notMem_name (hr : Registry.ofSettings languages = .ok s.registry)
    (hp : languages.patterns = .empty) (hf : f ∈ (s.scan v env).files) (hs : sig ∈ f.signatures) :
    '\n' ∉ sig.name.toList := by
  obtain ⟨l, content, signatures, hx, _, he⟩ := exists_extract_of_mem_files hf
  rw [he] at hs
  have hnone : languages.patterns.find? l.name = none := by
    rw [hp]
    rfl
  obtain ⟨rule, hrule, rfl⟩ := Registry.exists_rule_of_extract hx
  rw [Registry.ruleFor?_eq_builtin hr hnone] at hrule
  cases hrule
  have hclass := (Rule.Builtin.lexical_of_mem_signatures (List.mem_of_mem_take hs)).name
  intro hm
  cases hclass.isBlank_eq '\n' hm

/-- The compact form of a scan is one line for each signature, if no pattern is replaced and no name
in the tree has a line end. -/
theorem scan_isCompact (hv : v.Proper) (hr : Registry.ofSettings languages = .ok s.registry)
    (hp : languages.patterns = .empty) (hn : s.OneLineNames v env) :
    (s.scan v env).IsCompact (s.scan v env).compactLines := by
  rw [Report.isCompact_iff, and_iff_right rfl, Report.located]
  intro p h
  obtain ⟨f, hf, hm⟩ := List.mem_flatMap.mp h
  obtain ⟨sig, hs, rfl⟩ := List.mem_map.mp hm
  constructor
  · exact lineFeed_notMem_path hv hn hf
  · exact lineFeed_notMem_name hr hp hf hs
  · exact (lineFeed_notMem_of_mem_files hf hs).1
  · exact (lineFeed_notMem_of_mem_files hf hs).2

theorem oneLineNames_moduleVolume (content : String) (hr : s.root = "/") :
    s.OneLineNames (moduleVolume content) topEnvironment := by
  intro names h
  rw [Volume.standing?, hr, find_moduleVolume] at h
  change (Node.at? names (.directory [("a.py", .file content.toUTF8)])).isSome at h
  cases names with
  | nil => simp
  | cons first names =>
    rw [Node.at?_directory, List.lookup_cons] at h
    split at h
    · rename_i he
      obtain rfl := beq_iff_eq.mp he
      cases names with
      | nil => decide
      | cons second names => cases h
    · cases h

/-- Two functions, the first with arguments over two lines. -/
def moduleText : String :=
  "def f(a,\n  b) -> int:\ndef g():\n"

theorem files_moduleText : (loopScanner.scan (moduleVolume moduleText) topEnvironment).files =
    [⟨"a.py", .python, [⟨"f", "a, b", "int"⟩, ⟨"g", "", ""⟩]⟩] := by
  rw [files_moduleVolume rfl rfl]
  decide +kernel

/-- Arguments over two lines of the source text are on one line of the report. -/
theorem scan_isCompact_module :
    ((moduleVolume moduleText).Proper ∧ Registry.ofSettings .default = .ok loopScanner.registry ∧
        LanguageSettings.default.patterns = .empty ∧
          loopScanner.OneLineNames (moduleVolume moduleText) topEnvironment) ∧
      (loopScanner.scan (moduleVolume moduleText) topEnvironment).IsCompact
        ["a.py: f(a, b) -> int", "a.py: g()"] := by
  have hv := moduleVolume_proper moduleText
  have hr : Registry.ofSettings .default = .ok loopScanner.registry := rfl
  have hn := oneLineNames_moduleVolume moduleText (s := loopScanner) rfl
  have hl : (loopScanner.scan (moduleVolume moduleText) topEnvironment).compactLines =
      ["a.py: f(a, b) -> int", "a.py: g()"] := by
    rw [Report.compactLines, files_moduleText]
    decide
  exact ⟨⟨hv, hr, rfl, hn⟩, hl ▸ scan_isCompact hv hr rfl hn⟩

end CodeOutline.Scanner
