import CodeOutline.Proofs.Scan.Accounts
import CodeOutline.Proofs.Volume.Spelling

/-! # Scans by other paths of the directory

A scan says the same of a directory by whatever path the directory is given, as long as no path
below it leads through too many links, or is too long, by one of them only. The paths in a report
are those that are left of the whole paths after the path of the directory, so they do not show it.
-/

namespace CodeOutline

/-- A path that starts below a directory and goes down only. -/
structure Path.GoesDown (p : RawText) : Prop where
  relative : Path.isAbsolute p = false
  parts : ∀ part ∈ Path.parts p, part ≠ "" ∧ part ≠ "." ∧ part ≠ ".."

namespace Scanner

open Volume (SameDirectory)

/-- The scanner with another path of its directory. -/
def rooted (s : Scanner) (root : RawText) : Scanner :=
  { s with root }

variable {s t : Scanner} {v : Volume} {env : Environment} {root : RawText} {names : List RawText}
  {plan : ScanPlan} {base : Found} {f : Finding}

theorem examine_rooted (s : Scanner) (root : RawText) : (s.rooted root).examine = s.examine := rfl

/-! ## Listings -/

theorem Shows.rooted (h : s.Shows v env names) (hd : v.SameDirectory env.cwd s.root root) :
    (s.rooted root).Shows v env names where
  below_root := h.below_root
  stands := by
    rw [Scanner.rooted, hd.standing?_eq]
    exact h.stands
  opened up hp hne := by
    have hs := Volume.isSome_standing?_of_prefix hp h.stands
    exact (hd.opens_iff hs).mpr (h.opened up hp hne)
  entered up name hp hc := by
    have hs := Volume.isSome_standing?_of_prefix hp h.stands
    exact h.entered up name hp ((hd.countsAsDirectory_iff hs).mp hc)
  kept up name hn hc := h.kept up name hn fun hc' =>
    hc ((hd.countsAsDirectory_iff h.stands).mpr hc')

theorem shows_rooted_iff (hd : v.SameDirectory env.cwd s.root root) :
    (s.rooted root).Shows v env names ↔ s.Shows v env names := by
  constructor
  · intro h
    have hback : ((s.rooted root).rooted s.root).Shows v env names := h.rooted hd.symm
    exact hback
  · intro h
    exact h.rooted hd

theorem items_rooted (hv : v.Proper) (hg : s.settings.respectGitignore = false)
    (hd : v.SameDirectory env.cwd s.root root) :
    (s.rooted root).items v env = s.items v env :=
  items_congr hv hv hg hg (fun _ => shows_rooted_iff hd) fun _ hs =>
    ⟨hd.countsAsDirectory_iff hs.stands, hd.leadsToDirectory_iff hs.stands⟩

theorem findings_rooted (hv : v.Proper) (hg : s.settings.respectGitignore = false)
    (hd : v.SameDirectory env.cwd s.root root) :
    ((s.rooted root).entries v env).filterMap (s.rooted root).examine =
      (s.entries v env).filterMap s.examine := by
  apply findings_congr hv hv (items_rooted hv hg hd)
  intro i hi
  have hstands := ((mem_items_iff hv hg).mp (mem_fileItems.mp hi).1).1.stands
  rw [findingAt, findingAt, examine_rooted]
  exact congrArg (fun target => s.examine ⟨i.path, i.kind, target⟩) (hd.resolve_eq hstands)

/-! ## Paths -/

theorem path_of_mem_findings (hv : v.Proper) (hroot : Path.isAbsolute s.root = true)
    (hf : f ∈ (s.entries v env).filterMap s.examine) :
    Path.GoesDown f.path ∧ ∃ base e, v.find env.cwd s.root = .ok base ∧ e ∈ s.entries v env ∧
      Path.stripPrefix? s.root ((s.walk v base).pathOf e.names) = some f.path := by
  obtain ⟨e, he, hx⟩ := List.mem_filterMap.mp hf
  obtain ⟨base, hfind, hl⟩ := lists_of_mem_entries hv he
  obtain ⟨up, name, hp, hn⟩ := path_of_mem_items hv (List.mem_map_of_mem (f := Entry.item) he)
  have hnames : e.names = up ++ [name] := hp
  have hne : up ++ [name] ≠ [] := by simp
  have hs : ∀ n ∈ up ++ [name], Path.slash ∉ n.bytes := fun n hmem => (hn n hmem).noSlash
  have hempty : ("" : RawText) ∉ up ++ [name] := fun hmem => (hn "" hmem).ne_empty rfl
  have hi : ∀ n ∈ up ++ [name], Path.isIdle n = false := by
    intro n hmem
    simp [Path.isIdle, (hn n hmem).ne_empty, (hn n hmem).ne_point]
  rw [path_of_examine hx, hnames]
  refine ⟨⟨Path.isAbsolute_ofParts hs hempty hne, ?_⟩, base, e, hfind, he, ?_⟩
  · rw [Path.parts_ofParts hs hne]
    intro part hmem
    exact ⟨(hn part hmem).ne_empty, (hn part hmem).ne_point, (hn part hmem).ne_points⟩
  · rw [hnames]
    exact Path.stripPrefix?_foldl_join hroot hs hi hne

/-! ## Reports -/

theorem build_eq_ok_iff : build v env plan = .ok s ↔
    v.isDirectory env.cwd (Path.join env.cwd (plan.root.getD ".")) = true ∧
      ∃ exclude, parseGlobs ((plan.settings.getD .default).exclude ++ plan.exclude) = .ok exclude ∧
        s = ⟨Path.join env.cwd (plan.root.getD "."), plan.settings.getD .default,
          plan.registry.getD .builtin, exclude⟩ := by
  rw [build]
  dsimp only
  cases v.isDirectory env.cwd (Path.join env.cwd (plan.root.getD ".")) with
  | false =>
    constructor
    · intro h
      cases h
    · rintro ⟨h, _⟩
      cases h
  | true =>
    cases parseGlobs ((plan.settings.getD .default).exclude ++ plan.exclude) with
    | error error =>
      constructor
      · intro h
        cases h
      · rintro ⟨_, _, h, _⟩
        cases h
    | ok exclude =>
      constructor
      · intro h
        cases h
        exact ⟨rfl, exclude, rfl, rfl⟩
      · rintro ⟨_, _, h, rfl⟩
        cases h
        rfl

theorem build_rooted {root : Option RawText} (h : build v env plan = .ok s)
    (hd : v.isDirectory env.cwd (Path.join env.cwd (root.getD ".")) = true) :
    build v env { plan with root } = .ok (s.rooted (Path.join env.cwd (root.getD "."))) := by
  obtain ⟨_, exclude, hp, rfl⟩ := build_eq_ok_iff.mp h
  exact build_eq_ok_iff.mpr ⟨hd, exclude, hp, rfl⟩

/-- By another path of the directory, a scan says the same. -/
theorem scan_respelled {root : Option RawText} (hv : v.Proper)
    (hcwd : Path.isAbsolute env.cwd = true)
    (hg : (plan.settings.getD .default).respectGitignore = false)
    (hs : build v env plan = .ok s)
    (hd : v.SameDirectory env.cwd s.root (Path.join env.cwd (root.getD "."))) :
    ∃ t, build v env { plan with root } = .ok t ∧
      (t.scan v env).tree = (s.scan v env).tree ∧
      (t.scan v env).files = (s.scan v env).files ∧
      (t.scan v env).skipped = (s.scan v env).skipped ∧
      ∀ path ∈ (t.scan v env).files.map (·.path) ++ (t.scan v env).skipped.map (·.path),
        Path.GoesDown path ∧ ∃ base e, v.find env.cwd t.root = .ok base ∧ e ∈ t.entries v env ∧
          Path.stripPrefix? t.root ((t.walk v base).pathOf e.names) = some path := by
  have hg : s.settings.respectGitignore = false := by
    obtain ⟨_, exclude, _, rfl⟩ := build_eq_ok_iff.mp hs
    exact hg
  have hf := findings_rooted hv hg hd
  refine ⟨_, build_rooted hs hd.isDirectory, ?_, ?_, ?_, ?_⟩
  · rw [tree_eq, tree_eq, items_rooted hv hg hd]
  · exact congrArg (·.filterMap Finding.summary?) hf
  · exact congrArg (·.filterMap Finding.skipped?) hf
  · intro path hpath
    have hperm := Finding.paths_perm (((s.rooted (Path.join env.cwd (root.getD "."))).entries v
      env).filterMap (s.rooted (Path.join env.cwd (root.getD "."))).examine)
    obtain ⟨f, hmem, rfl⟩ := List.mem_map.mp (hperm.mem_iff.mp hpath)
    exact path_of_mem_findings hv (Path.isAbsolute_join hcwd _) hmem

/-- A directory with a file, a link that leads nowhere and a link out of it. -/
def sourceNode : Node :=
  .directory [("b.rs", .file "fn b() \x7b\x7d".toUTF8), ("c.py", .link "missing"),
    ("up", .link "..")]

def sourceVolume : Volume where
  top := .directory [("src", sourceNode)]

def sourceScanner : Scanner :=
  ⟨"/src", .default, .builtin, []⟩

theorem sourceVolume_proper : sourceVolume.Proper := by
  have hs : sourceNode.Proper := .directory _ (by decide) (by decide)
    (List.forall_mem_cons.mpr ⟨.file _, List.forall_mem_cons.mpr ⟨.link "missing",
      List.forall_mem_singleton.mpr (.link "..")⟩⟩)
  exact .directory _ (by decide) (by decide) (List.forall_mem_singleton.mpr hs)

theorem find_sourceVolume : sourceVolume.find topEnvironment.cwd sourceScanner.root =
    .ok ⟨["src"], sourceNode, Volume.linkLimit⟩ := rfl

theorem build_sourceVolume :
    build sourceVolume topEnvironment ⟨some "src", none, none, []⟩ = .ok sourceScanner :=
  build_eq_ok_iff.mpr ⟨rfl, [], rfl, rfl⟩

theorem at?_sourceNode {m : Node} (h : sourceNode.at? names = some m) :
    names ∈ [[], [("b.rs" : RawText)], ["c.py"], ["up"]] := by
  cases names with
  | nil => exact List.mem_cons_self
  | cons name rest =>
    obtain ⟨child, hc, hm⟩ := Option.bind_eq_some_iff.mp h
    have hmem := Node.mem_of_lookup hc
    simp only [List.mem_cons, Prod.mk.injEq, List.not_mem_nil, or_false] at hmem
    cases rest with
    | nil => rcases hmem with ⟨rfl, _⟩ | ⟨rfl, _⟩ | ⟨rfl, _⟩ <;> decide +kernel
    | cons next rest =>
      rcases hmem with ⟨_, rfl⟩ | ⟨_, rfl⟩ | ⟨_, rfl⟩ <;> cases hm

theorem sameDirectory_sourceVolume : sourceVolume.SameDirectory topEnvironment.cwd
    sourceScanner.root
      (Path.join topEnvironment.cwd ((some (RawText.ofText "src/../src/.")).getD ".")) := by
  have hstay : sourceVolume.Detours ([("" : RawText), "src"] ++ ("." : RawText) :: [])
      ([("" : RawText), "src"] ++ []) := .stay _ _ _ _ rfl rfl rfl
  have hback : sourceVolume.Detours
      ([("" : RawText)] ++ ("src" : RawText) :: (".." : RawText) :: [("src" : RawText), "."])
        ([("" : RawText)] ++ [("src" : RawText), "."]) :=
    .back _ _ _ ⟨[], sourceVolume.top, Volume.linkLimit⟩ _ rfl (by decide) rfl
  have hshort : ∀ names ∈ [[], [("b.rs" : RawText)], ["c.py"], ["up"]],
      (names.foldl Path.join "/src").size ≤ Volume.pathLimit ∧
        (names.foldl Path.join "/src/../src/.").size ≤ Volume.pathLimit := by decide +kernel
  refine SameDirectory.of_detours find_sourceVolume rfl ⟨by decide, by decide, by decide⟩
    (hback.trans hstay).symm fun names hs => ?_
  rw [Volume.standing?_eq find_sourceVolume, Option.isSome_iff_exists] at hs
  obtain ⟨m, hm⟩ := hs
  exact hshort names (at?_sourceNode hm)

theorem scan_respelled_source :
    (sourceVolume.Proper ∧ Path.isAbsolute topEnvironment.cwd = true ∧
        ScanSettings.default.respectGitignore = false ∧
        build sourceVolume topEnvironment ⟨some "src", none, none, []⟩ = .ok sourceScanner ∧
        sourceVolume.SameDirectory topEnvironment.cwd sourceScanner.root
          (Path.join topEnvironment.cwd ((some (RawText.ofText "src/../src/.")).getD "."))) ∧
      ∃ t, build sourceVolume topEnvironment ⟨some "src/../src/.", none, none, []⟩ = .ok t ∧
        (t.scan sourceVolume topEnvironment).tree =
          (sourceScanner.scan sourceVolume topEnvironment).tree ∧
        (t.scan sourceVolume topEnvironment).files =
          (sourceScanner.scan sourceVolume topEnvironment).files ∧
        (t.scan sourceVolume topEnvironment).skipped =
          (sourceScanner.scan sourceVolume topEnvironment).skipped := by
  obtain ⟨t, hbuild, htree, hfiles, hskipped, _⟩ := scan_respelled sourceVolume_proper rfl rfl
    build_sourceVolume sameDirectory_sourceVolume
  exact ⟨⟨sourceVolume_proper, rfl, rfl, build_sourceVolume, sameDirectory_sourceVolume⟩, t, hbuild,
    htree, hfiles, hskipped⟩

/-! ## Far paths -/

/-- A directory with a link to itself and a link that goes through that one many times. -/
def linkedNode : Node :=
  .directory [("l", .link "o/o/o/o/o/o/o/o/o/o/o/o/o/o/o/o/o/o/o/o/o/o/o/o/o"), ("o", .link ".")]

def linkedVolume : Volume where
  top := .directory [("d", linkedNode), ("s", .link "d")]

/-- A path of the directory through a link that is left again many times. -/
def linkedRoot : RawText :=
  "/s/../s/../s/../s/../s/../s/../s/../s/../s/../s/../s/../s/../s/../s/../s/../s/../s/../s/../s/../d"

def linkedScanner (root : RawText) : Scanner :=
  ⟨root, .default, .builtin, []⟩

theorem linkedVolume_proper : linkedVolume.Proper := by
  have hs : linkedNode.Proper := .directory _ (by decide) (by decide)
    (List.forall_mem_cons.mpr ⟨.link _, List.forall_mem_singleton.mpr (.link _)⟩)
  exact .directory _ (by decide) (by decide)
    (List.forall_mem_cons.mpr ⟨hs, List.forall_mem_singleton.mpr (.link _)⟩)

set_option maxRecDepth 4000 in
theorem find_linkedVolume : linkedVolume.find topEnvironment.cwd (linkedScanner "/d").root =
      .ok ⟨["d"], linkedNode, Volume.linkLimit⟩ ∧
    linkedVolume.find topEnvironment.cwd (linkedScanner linkedRoot).root =
      .ok ⟨["d"], linkedNode, 21⟩ :=
  ⟨rfl, rfl⟩

theorem build_of_find (hroot : Path.isAbsolute root = true) (hf : v.find env.cwd root = .ok base)
    (hd : base.node.isDirectory = true) :
    build v env ⟨some root, none, none, []⟩ = .ok ⟨root, .default, .builtin, []⟩ := by
  refine build_eq_ok_iff.mpr ?_
  simp only [Option.getD_some, Path.join_of_isAbsolute env.cwd hroot]
  refine ⟨?_, [], rfl, rfl⟩
  rw [Volume.isDirectory, hf]
  exact hd

/-- Where a path of the directory leads through many links itself, fewer can be followed below it,
and where it is a long one, no path below it is short enough. -/
theorem scan_respelled_far :
    (linkedVolume.Proper ∧ ∃ s t base base',
      build linkedVolume topEnvironment ⟨some "/d", none, none, []⟩ = .ok s ∧
      build linkedVolume topEnvironment ⟨some linkedRoot, none, none, []⟩ = .ok t ∧
      linkedVolume.find topEnvironment.cwd s.root = .ok base ∧
      linkedVolume.find topEnvironment.cwd t.root = .ok base' ∧ base.place = base'.place ∧
      (s.scan linkedVolume topEnvironment).tree = [⟨1, "l", .directory⟩, ⟨1, "o", .directory⟩] ∧
      (t.scan linkedVolume topEnvironment).tree = [⟨1, "l", .file⟩, ⟨1, "o", .directory⟩]) ∧
    (moduleVolume "def f():\n").Proper ∧ ∃ s t base,
      build (moduleVolume "def f():\n") topEnvironment ⟨some "/", none, none, []⟩ = .ok s ∧
      build (moduleVolume "def f():\n") topEnvironment
        ⟨some (Volume.slashes Volume.pathLimit), none, none, []⟩ = .ok t ∧
      (moduleVolume "def f():\n").find topEnvironment.cwd s.root = .ok base ∧
      (moduleVolume "def f():\n").find topEnvironment.cwd t.root = .ok base ∧
      (s.scan (moduleVolume "def f():\n") topEnvironment).files =
        [⟨"a.py", .python, [⟨"f", "", ""⟩]⟩] ∧
      (t.scan (moduleVolume "def f():\n") topEnvironment).files = [] := by
  obtain ⟨hf, hf'⟩ := find_linkedVolume
  have hnear : (moduleVolume "def f():\n").find topEnvironment.cwd loopScanner.root =
      .ok ⟨[], (moduleVolume "def f():\n").top, Volume.linkLimit⟩ := rfl
  have hfar := find_farScanner (moduleVolume "def f():\n") topEnvironment
  have hroot := Volume.isAbsolute_slashes (show 0 < Volume.pathLimit by decide)
  refine ⟨⟨linkedVolume_proper, linkedScanner "/d", linkedScanner linkedRoot, _, _,
    build_of_find rfl hf rfl, build_of_find rfl hf' rfl, hf, hf', rfl, ?_, ?_⟩,
    moduleVolume_proper _, loopScanner, farScanner, _, build_of_find rfl hnear rfl,
    build_of_find hroot hfar rfl, hnear, hfar, ?_, ?_⟩
  · rw [scan, entries_of_shut hf rfl rfl] <;> decide +kernel
  · rw [scan, entries_of_shut hf' rfl rfl] <;> decide +kernel
  · rw [scan, entries_of_shut hnear rfl rfl] <;> decide +kernel
  · rw [scan, entries_of_shut hfar rfl rfl] <;> decide +kernel

end Scanner

end CodeOutline
