import CodeOutline.Proofs.Scan.Finding
import CodeOutline.Proofs.Scan.Tree

/-! # Excluded files

The globs of a scanner have no say in what is listed. They take files out of the two lists of the
report and change nothing else there, and it makes no difference whether they come with the settings
or beside them, in which order, or how often.
-/

namespace CodeOutline

/-- The report without what it says of excluded files. The listing stays. -/
def Report.without (excluded : RawText → Bool) (r : Report) : Report :=
  { r with
    files := r.files.filter fun f => !excluded f.path
    skipped := r.skipped.filter fun f => !excluded f.path }

theorem Report.without_none (r : Report) : r.without (fun _ => false) = r := by
  simp [without]

/-- The text writes a glob. -/
def Glob.IsWritten (text : String) : Prop :=
  ∃ g, Glob.parse text = .ok g

/-- The path matches a glob that one of the texts writes. -/
def Glob.matchesText (texts : List String) (path : String) : Bool :=
  texts.any fun text =>
    match Glob.parse text with
    | .ok g => g.isMatch path
    | .error _ => false

/-- A path that is no text matches nothing. -/
def Glob.matchesAny (texts : List String) (path : RawText) : Bool :=
  match path.text? with
  | some path => matchesText texts path
  | none => false

theorem Glob.matchesAny_congr {texts others : List String}
    (h : ∀ text, text ∈ texts ↔ text ∈ others) : matchesAny texts = matchesAny others := by
  have ht : matchesText texts = matchesText others := by
    funext path
    rw [Bool.eq_iff_iff, matchesText, matchesText, List.any_eq_true, List.any_eq_true]
    exact exists_congr fun text => and_congr_left fun _ => h text
  funext path
  rw [matchesAny, matchesAny, ht]

theorem Glob.matchesAny_nil : matchesAny [] = fun _ => false := by
  funext path
  rw [matchesAny]
  cases path.text? <;> rfl

/-! ## Listings -/

namespace Walk

/-- The walk under settings with other globs. -/
def withExclude (w : Walk) (globs : List String) : Walk :=
  { w with settings := { w.settings with exclude := globs } }

variable {w : Walk}

theorem entryFor_withExclude (w : Walk) (globs : List String) :
    (w.withExclude globs).entryFor = w.entryFor := rfl

theorem leavesOut_withExclude (w : Walk) (globs : List String) :
    (w.withExclude globs).leavesOut = w.leavesOut := by
  funext name kind
  cases kind <;> rfl

/-- No walk asks for the globs. -/
theorem below_withExclude (w : Walk) (globs : List String) (layers : Ignore.Layers)
    (names : List RawText) (node : Node) :
    (w.withExclude globs).below layers names node = w.below layers names node := by
  induction node using Node.induct generalizing layers names with
  | directory entries ih =>
    have hb : ∀ layers, ∀ p ∈ entries,
        (w.withExclude globs).branch? layers names p = w.branch? layers names p := by
      intro layers p hp
      rw [branch?, branch?, entryFor_withExclude, leavesOut_withExclude, ih p hp]
      rfl
    have he : (w.withExclude globs).enter layers names = w.enter layers names := rfl
    have ho : (w.withExclude globs).opens names = w.opens names := rfl
    rw [below_directory, below_directory, ho, sorted, sorted, he, List.filterMap_congr (hb _)]
  | file content => rw [below, below]
  | link target => rw [below, below]
  | device => rw [below, below]

end Walk

/-! ## Reports -/

namespace Finding

variable {fs : List Finding}

theorem filterMap_summary?_filter (keep : RawText → Bool) :
    (fs.filter fun f => keep f.path).filterMap summary? =
      (fs.filterMap summary?).filter fun f => keep f.path := by
  rw [List.filterMap_filter, List.filter_filterMap]
  refine List.filterMap_congr fun f _ => ?_
  cases f with
  | summary f => cases h : keep f.path <;> simp [path, summary?, Option.filter_some, h]
  | skipped f => simp [summary?]

theorem filterMap_skipped?_filter (keep : RawText → Bool) :
    (fs.filter fun f => keep f.path).filterMap skipped? =
      (fs.filterMap skipped?).filter fun f => keep f.path := by
  rw [List.filterMap_filter, List.filter_filterMap]
  refine List.filterMap_congr fun f _ => ?_
  cases f with
  | summary f => simp [skipped?]
  | skipped f => cases h : keep f.path <;> simp [path, skipped?, Option.filter_some, h]

end Finding

namespace Scanner

/-- The scanner that excludes nothing. -/
def unrestricted (s : Scanner) : Scanner :=
  { s with settings := { s.settings with exclude := [] }, exclude := [] }

variable {s : Scanner} {v : Volume} {env : Environment} {e : Entry}

theorem entries_unrestricted (s : Scanner) (v : Volume) (env : Environment) :
    s.unrestricted.entries v env = s.entries v env := by
  have hroot : s.unrestricted.root = s.root := rfl
  rw [entries, entries, hroot]
  cases v.find env.cwd s.root with
  | error error => rfl
  | ok base => exact Walk.below_withExclude ⟨v, s.root, base, s.settings⟩ [] _ _ _

theorem findingFor_unrestricted (s : Scanner) : s.unrestricted.findingFor = s.findingFor := rfl

theorem isExcluded_unrestricted (s : Scanner) (path : RawText) :
    s.unrestricted.isExcluded path = false := by
  rw [isExcluded]
  cases path.text? <;> rfl

theorem examine_eq_filter (s : Scanner) (e : Entry) :
    s.examine e = (s.unrestricted.examine e).filter fun f => !s.isExcluded f.path := by
  have hlang : s.unrestricted.languageOf? = s.languageOf? := rfl
  unfold examine
  rw [hlang]
  cases e.kind with
  | directory => rfl
  | file =>
    cases e.names.getLast?.bind s.languageOf? with
    | none => rfl
    | some l =>
      dsimp only
      rw [isExcluded_unrestricted, if_neg Bool.false_ne_true, findingFor_unrestricted]
      cases hf : s.findingFor (Path.ofParts e.names) l e.target with
      | none => split <;> rfl
      | some f =>
        rw [Option.filter_some, path_of_findingFor hf]
        cases s.isExcluded (Path.ofParts e.names) <;> rfl

/-- A scan tells what it tells without globs, less what it tells of excluded files. -/
theorem scan_eq_without (s : Scanner) (v : Volume) (env : Environment) :
    s.scan v env = (s.unrestricted.scan v env).without s.isExcluded := by
  have hf : (s.entries v env).filterMap s.examine =
      ((s.entries v env).filterMap s.unrestricted.examine).filter
        fun f => !s.isExcluded f.path := by
    rw [List.filter_filterMap]
    exact List.filterMap_congr fun e _ => s.examine_eq_filter e
  rw [scan, scan, entries_unrestricted, report, report, Report.without, hf,
    Finding.filterMap_summary?_filter fun path => !s.isExcluded path,
    Finding.filterMap_skipped?_filter fun path => !s.isExcluded path]
  rfl

/-! ## Routes of globs -/

variable {texts : List String}

theorem parseGlobs_eq_ok (h : ∀ text ∈ texts, Glob.IsWritten text) :
    ∃ globs, parseGlobs texts = .ok globs ∧
      ∀ path, globs.any (·.isMatch path) = Glob.matchesText texts path := by
  induction texts with
  | nil => exact ⟨[], rfl, fun _ => rfl⟩
  | cons text texts ih =>
    obtain ⟨g, hg⟩ := h text List.mem_cons_self
    obtain ⟨globs, hp, hm⟩ := ih fun other ho => h other (List.mem_cons_of_mem text ho)
    refine ⟨g :: globs, ?_, fun path => ?_⟩
    · rw [parseGlobs] at hp ⊢
      rw [List.mapM_cons, hg, hp]
      rfl
    · rw [List.any_cons, hm, Glob.matchesText, Glob.matchesText, List.any_cons, hg]

variable {root : Option RawText} {settings : ScanSettings} {registry : Option Registry}
  {configured beside merged : List String}

theorem build_eq_ok (settings : ScanSettings) (registry : Option Registry)
    (hroot : v.isDirectory env.cwd (Path.join env.cwd (root.getD ".")) = true)
    (h : ∀ text ∈ configured ++ beside, Glob.IsWritten text) :
    ∃ s, build v env ⟨root, some { settings with exclude := configured }, registry, beside⟩ =
        .ok s ∧
      s.unrestricted = ⟨Path.join env.cwd (root.getD "."), { settings with exclude := [] },
        registry.getD .builtin, []⟩ ∧
      s.isExcluded = Glob.matchesAny (configured ++ beside) := by
  obtain ⟨globs, hp, hm⟩ := parseGlobs_eq_ok h
  refine ⟨⟨Path.join env.cwd (root.getD "."), { settings with exclude := configured },
    registry.getD .builtin, globs⟩, ?_, rfl, funext fun path => ?_⟩
  · rw [build]
    dsimp only
    rw [hroot, Option.getD_some, hp]
    rfl
  · rw [isExcluded, Glob.matchesAny]
    cases path.text? with
    | none => rfl
    | some text => exact hm text

/-- Globs of the settings and globs beside them make up one set of globs, and a scan with them is
the scan without any less the excluded files. -/
theorem scan_excluding (registry : Option Registry)
    (hroot : v.isDirectory env.cwd (Path.join env.cwd (root.getD ".")) = true)
    (h : ∀ text ∈ configured ++ beside, Glob.IsWritten text)
    (hmerged : ∀ text, text ∈ merged ↔ text ∈ configured ++ beside) :
    ∃ s t plain,
      build v env ⟨root, some { settings with exclude := configured }, registry, beside⟩ = .ok s ∧
      build v env ⟨root, some { settings with exclude := merged }, registry, []⟩ = .ok t ∧
      build v env ⟨root, some { settings with exclude := [] }, registry, []⟩ = .ok plain ∧
      s.scan v env = t.scan v env ∧
      s.scan v env = (plain.scan v env).without (Glob.matchesAny (configured ++ beside)) := by
  have h' : ∀ text ∈ merged ++ [], Glob.IsWritten text := fun text ht =>
    h text ((hmerged text).mp (by simpa using ht))
  obtain ⟨s, hs, hsu, hse⟩ := build_eq_ok settings registry hroot h
  obtain ⟨t, ht, htu, hte⟩ := build_eq_ok settings registry hroot h'
  obtain ⟨plain, hp, hpu, hpe⟩ := build_eq_ok settings registry hroot
    (show ∀ text ∈ [] ++ [], Glob.IsWritten text by simp)
  have hplain : plain.scan v env = plain.unrestricted.scan v env := by
    rw [scan_eq_without plain, hpe, List.append_nil, Glob.matchesAny_nil, Report.without_none]
  refine ⟨s, t, plain, hs, ht, hp, ?_, ?_⟩
  · rw [scan_eq_without s, scan_eq_without t, hsu, htu, hse, hte, List.append_nil,
      Glob.matchesAny_congr hmerged]
  · rw [scan_eq_without s, hsu, hse, hplain, hpu]

/-- Of three files with functions two are excluded. -/
theorem scan_excluding_loop :
    (loopVolume.isDirectory topEnvironment.cwd (Path.join topEnvironment.cwd "/") = true ∧
        (∀ text ∈ ["gen*", "tmp/**"], Glob.IsWritten text) ∧
        ∀ text, text ∈ ["tmp/**", "gen*", "tmp/**"] ↔ text ∈ ["gen*", "tmp/**"]) ∧
      (∃ s t plain,
        build loopVolume topEnvironment
            ⟨some "/", some { ScanSettings.default with exclude := ["gen*"] }, none, ["tmp/**"]⟩ =
          .ok s ∧
        build loopVolume topEnvironment
            ⟨some "/", some { ScanSettings.default with exclude := ["tmp/**", "gen*", "tmp/**"] },
              none, []⟩ =
          .ok t ∧
        build loopVolume topEnvironment
            ⟨some "/", some { ScanSettings.default with exclude := [] }, none, []⟩ =
          .ok plain ∧
        s.scan loopVolume topEnvironment = t.scan loopVolume topEnvironment ∧
        s.scan loopVolume topEnvironment =
          (plain.scan loopVolume topEnvironment).without (Glob.matchesAny ["gen*", "tmp/**"])) ∧
      ((loopScanner.scan loopVolume topEnvironment).files.map fun f =>
        (f.path, Glob.matchesAny ["gen*", "tmp/**"] f.path)) =
          [(("b.rs" : RawText), false), ("gen.py", true), ("tmp/o.py", true)] := by
  have hroot : loopVolume.isDirectory topEnvironment.cwd (Path.join topEnvironment.cwd "/") =
      true := rfl
  have hw : ∀ text ∈ ["gen*", "tmp/**"], Glob.IsWritten text := by
    simp only [List.forall_mem_cons, List.not_mem_nil, false_imp_iff, implies_true, and_true]
    exact ⟨⟨_, rfl⟩, ⟨_, rfl⟩⟩
  have hm : ∀ text, text ∈ ["tmp/**", "gen*", "tmp/**"] ↔ text ∈ ["gen*", "tmp/**"] := by
    intro text
    simp only [List.mem_cons, List.not_mem_nil, or_false]
    tauto
  refine ⟨⟨hroot, hw, hm⟩, scan_excluding none hroot hw hm, ?_⟩
  rw [scan, entries_loopVolume rfl rfl]
  decide +kernel

end Scanner

end CodeOutline
