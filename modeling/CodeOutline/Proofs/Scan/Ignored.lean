import CodeOutline.Proofs.Scan.Accounts
import CodeOutline.Proofs.Scan.Exclude
import CodeOutline.Proofs.Walk.Ignored

/-! # Scans that honour ignore files

To honour ignore files takes entries out of the listing of a scan, with a directory all that is
below it, and with a file what the report says of it. Nothing else changes, and nothing at all does
where no file of rules can be read.
-/

namespace CodeOutline

/-- An item of a listing has this path. -/
def Item.lists (is : List Item) (path : RawText) : Bool :=
  (is.map Item.text).contains path

/-- A report without some entries of its listing, with what its lines and those that are left stand
for. -/
structure Report.Pruned (r pruned : Report) (items kept : List Item) : Prop where
  root : pruned.root = r.root
  tree : r.tree = items.map Item.entry
  pruned_tree : pruned.tree = kept.map Item.entry
  /-- The paths that are found for lines are those that they stand for, as they are shown. -/
  located : Line.locate r.tree = items.map Item.line
  pruned_located : Line.locate pruned.tree = kept.map Item.line
  unique : (items.map Item.text).Nodup
  /-- Some items are gone, and with every item that is gone all items below it. -/
  items : ∃ gone : Item → Bool,
    (∀ d ∈ items, ∀ i ∈ items, d.path <+: i.path → gone d = true → gone i = true) ∧
      kept = items.filter fun i => !gone i
  files : pruned.files = r.files.filter fun f => Item.lists kept f.path
  skipped : pruned.skipped = r.skipped.filter fun f => Item.lists kept f.path

namespace Scanner

/-- The scanner that honours ignore files, or the one that does not. -/
def honouring (s : Scanner) (honoured : Bool) : Scanner :=
  { s with settings := { s.settings with respectGitignore := honoured } }

/-- No file of rules can be read where a scan looks for one. -/
structure NoIgnoreFiles (s : Scanner) (v : Volume) (env : Environment) : Prop where
  general : ∀ path, Ignore.generalPath? v env = some path → Ignore.content? v env path = none
  nested : ∀ names entries, v.standing? env.cwd s.root names = some (.directory entries) →
    (∀ name ∈ names, name.shown ∉ s.settings.ignoreDirs) →
      ∀ parts ∈ [[Ignore.ignoreFileName], Ignore.excludeFileParts], ∀ content,
        v.resolve env.cwd s.root (names ++ parts) ≠ .ok ⟨.file content, none⟩

variable {s : Scanner} {v : Volume} {env : Environment} {base : Found} {honoured other : Bool}
  {e : Entry} {i : Item} {names parts : List RawText} {entries : List (RawText × Node)}

/-! ## The listing -/

theorem mem_entries_honouring_iff (hv : v.Proper) (hf : v.find env.cwd s.root = .ok base) :
    e ∈ (s.honouring true).entries v env ↔ e ∈ (s.honouring false).entries v env ∧
      ((s.honouring true).walk v base).admits (Ignore.Layers.start v env) [] base.node e.names =
        true := by
  have hon : (s.honouring true).entries v env =
      ((s.honouring true).walk v base).entries env := entries_of_find hf
  have hoff : (s.honouring false).entries v env =
      ((s.honouring false).walk v base).entries env := entries_of_find hf
  rw [hon, hoff, Walk.entries, Walk.entries]
  refine (Walk.mem_below_iff_admits (Volume.proper_base hv hf)).trans (and_congr_right' ?_)
  constructor
  · rintro ⟨rest, hr, ha⟩
    rwa [hr]
  · intro ha
    exact ⟨e.names, rfl, ha⟩

/-- Items that stay are told by their names, and an item stays only if all those above it do. -/
theorem items_honouring (hv : v.Proper) (hf : v.find env.cwd s.root = .ok base) :
    (s.honouring true).items v env = ((s.honouring false).items v env).filter fun i =>
      ((s.honouring true).walk v base).admits (Ignore.Layers.start v env) [] base.node i.path := by
  refine (forest_items hv (s.honouring true) env).ext
    ((forest_items hv (s.honouring false) env).filter fun d _ i _ hp h => ?_) fun i => ?_
  · obtain ⟨rest, hr⟩ := hp
    rw [← hr] at h
    exact Walk.admits_of_append h
  · rw [List.mem_filter, items, items, List.mem_map, List.mem_map]
    constructor
    · rintro ⟨e, he, rfl⟩
      obtain ⟨hoff, hk⟩ := (mem_entries_honouring_iff hv hf).mp he
      exact ⟨⟨e, hoff, rfl⟩, hk⟩
    · rintro ⟨⟨e, he, rfl⟩, hk⟩
      exact ⟨e, (mem_entries_honouring_iff hv hf).mpr ⟨he, hk⟩, rfl⟩

theorem exists_gone (hv : v.Proper) (s : Scanner) (env : Environment) :
    ∃ gone : Item → Bool, (∀ d i : Item, d.path <+: i.path → gone d = true → gone i = true) ∧
      (s.honouring true).items v env =
        ((s.honouring false).items v env).filter fun i => !gone i := by
  cases hf : v.find env.cwd s.root with
  | error error =>
    refine ⟨fun _ => false, fun _ _ _ h => h, ?_⟩
    have hon : (s.honouring true).entries v env = [] := entries_of_not_find hf
    have hoff : (s.honouring false).entries v env = [] := entries_of_not_find hf
    rw [items, items, hon, hoff]
    rfl
  | ok base =>
    refine ⟨fun i => !((s.honouring true).walk v base).admits (Ignore.Layers.start v env) []
      base.node i.path, ?_, ?_⟩
    · rintro d i ⟨rest, hr⟩ hd
      rw [Bool.not_eq_true', ← Bool.not_eq_true] at hd ⊢
      rw [← hr]
      exact fun hi => hd (Walk.admits_of_append hi)
    · rw [items_honouring hv hf]
      exact List.filter_congr fun i _ => (Bool.not_not _).symm

/-! ## The report -/

theorem findingAt_honouring (s : Scanner) (v : Volume) (env : Environment) (honoured : Bool) :
    (s.honouring honoured).findingAt v env = s.findingAt v env := rfl

theorem findings_filter (hv : v.Proper) {gone : Item → Bool}
    (h : (s.honouring true).items v env =
      ((s.honouring false).items v env).filter fun i => !gone i) :
    ((s.honouring true).entries v env).filterMap (s.honouring true).examine =
      (((s.honouring false).entries v env).filterMap (s.honouring false).examine).filter
        fun f => Item.lists ((s.honouring true).items v env) f.path := by
  have hlists : ∀ i ∈ (s.honouring false).items v env,
      Item.lists ((s.honouring true).items v env) i.text = !gone i := by
    intro i hi
    rw [Item.lists, h, List.contains_eq_mem, Bool.eq_iff_iff, decide_eq_true_iff, List.mem_map]
    constructor
    · rintro ⟨j, hj, ht⟩
      obtain ⟨hj, hk⟩ := List.mem_filter.mp hj
      rwa [← text_inj_of_mem_items hv hj hi ht]
    · intro hk
      exact ⟨i, List.mem_filter.mpr ⟨hi, hk⟩, rfl⟩
  rw [findings_eq hv, findings_eq hv, findingAt_honouring, findingAt_honouring, fileItems,
    fileItems, Item.files, Item.files]
  conv_lhs => rw [h]
  rw [List.filter_comm, List.filterMap_filter, List.filter_filterMap]
  refine List.filterMap_congr fun i hi => ?_
  cases hf : s.findingAt v env i with
  | none => simp
  | some f =>
    rw [Option.filter_some, path_of_findingAt hf, hlists i (List.mem_filter.mp hi).1]

theorem nodup_texts_items (hv : v.Proper) (s : Scanner) (env : Environment) :
    ((s.items v env).map Item.text).Nodup :=
  List.Nodup.map_on (fun _ hi _ hj h => text_inj_of_mem_items hv hi hj h)
    (List.Nodup.of_map _ (forest_items hv s env).nodup)

theorem scan_honouring_congr (hv : v.Proper)
    (h : (s.honouring honoured).items v env = (s.honouring other).items v env) :
    (s.honouring honoured).scan v env = (s.honouring other).scan v env := by
  have hroot : (s.honouring honoured).root = (s.honouring other).root := rfl
  apply scan_congr hroot h
  apply findings_congr hv hv h
  intro i _
  rw [findingAt_honouring, findingAt_honouring]

/-! ## Nothing to honour -/

theorem content?_eq_none (hv : v.Proper) (h : s.NoIgnoreFiles v env)
    (hf : v.find env.cwd s.root = .ok base) (hn : base.node.at? names = some (.directory entries))
    (hd : ∀ name ∈ names, name.shown ∉ s.settings.ignoreDirs)
    (hp : parts ∈ [[Ignore.ignoreFileName], Ignore.excludeFileParts]) (honoured : Bool) :
    ((s.honouring honoured).walk v base).content? names parts = none := by
  have hfind : ((s.honouring honoured).walk v base).find names parts =
      v.resolve env.cwd s.root (names ++ parts) :=
    (Walk.find_eq _ names parts).trans (Volume.resolve_append hv hf hn parts).symm
  rw [Walk.content?, hfind]
  split
  · rename_i content hc
    exact absurd hc (h.nested names entries ((Volume.standing?_eq hf names).trans hn) hd parts hp content)
  · rfl

theorem start_eq_empty (h : s.NoIgnoreFiles v env) : Ignore.Layers.start v env = .empty := by
  have hg : (Ignore.generalPath? v env).bind (Ignore.content? v env) = none := by
    cases hp : Ignore.generalPath? v env with
    | none => rfl
    | some path => exact h.general path hp
  rw [Ignore.Layers.start, Ignore.generalRules, hg]
  rfl

theorem plain_of_noIgnoreFiles (hv : v.Proper) (h : s.NoIgnoreFiles v env)
    (hf : v.find env.cwd s.root = .ok base) (honoured : Bool) :
    ((s.honouring honoured).walk v base).Plain [] base.node := by
  intro up es hup hds
  have hd : ∀ name ∈ up, name.shown ∉ s.settings.ignoreDirs := by
    intro name hn hm
    have hc := hds name hn
    rw [List.contains_eq_mem, decide_eq_false_iff_not] at hc
    exact hc hm
  have hnone : ∀ parts ∈ [[Ignore.ignoreFileName], Ignore.excludeFileParts],
      ((s.honouring honoured).walk v base).content? up parts = none :=
    fun _ hp => content?_eq_none hv h hf hup hd hp honoured
  rw [List.forall_mem_cons, List.forall_mem_singleton] at hnone
  rw [Walk.enter, List.nil_append]
  split
  · simp only [Ignore.Layers.enter, hnone.1, hnone.2]
    rfl
  · rfl

theorem mem_entries_iff_of_noIgnoreFiles (hv : v.Proper) (h : s.NoIgnoreFiles v env)
    (hf : v.find env.cwd s.root = .ok base) (honoured : Bool) :
    e ∈ (s.honouring honoured).entries v env ↔ (s.walk v base).Lists [] base.node e := by
  have he : (s.honouring honoured).entries v env =
      ((s.honouring honoured).walk v base).entries env := entries_of_find hf
  have hs : Ignore.Layers.start ((s.honouring honoured).walk v base).volume env = .empty :=
    start_eq_empty h
  rw [he, Walk.entries, hs, ite_self]
  refine (Walk.mem_below_iff_of_plain (plain_of_noIgnoreFiles hv h hf honoured)
    (Volume.proper_base hv hf)).trans ?_
  have hl : ((s.honouring honoured).walk v base).Lists = (s.walk v base).Lists :=
    Walk.lists_honouring (s.walk v base) honoured
  rw [hl]

theorem items_honouring_of_noIgnoreFiles (hv : v.Proper) (h : s.NoIgnoreFiles v env) :
    (s.honouring true).items v env = (s.honouring false).items v env := by
  refine (forest_items hv _ env).ext (forest_items hv _ env) fun i => ?_
  have he : ∀ e, e ∈ (s.honouring true).entries v env ↔ e ∈ (s.honouring false).entries v env := by
    intro e
    cases hf : v.find env.cwd s.root with
    | error error =>
      have hon : (s.honouring true).entries v env = [] := entries_of_not_find hf
      have hoff : (s.honouring false).entries v env = [] := entries_of_not_find hf
      rw [hon, hoff]
    | ok base =>
      rw [mem_entries_iff_of_noIgnoreFiles hv h hf, mem_entries_iff_of_noIgnoreFiles hv h hf]
  simp only [items, List.mem_map, he]

/-- To honour ignore files only takes entries out, and none where there are no such files. -/
theorem scan_honouring (hv : v.Proper) (s : Scanner) (env : Environment) :
    ((s.honouring false).scan v env).Pruned ((s.honouring true).scan v env)
        ((s.honouring false).items v env) ((s.honouring true).items v env) ∧
      (s.NoIgnoreFiles v env →
        (s.honouring true).scan v env = (s.honouring false).scan v env) := by
  constructor
  · obtain ⟨gone, hclosed, hitems⟩ := exists_gone hv s env
    have hfound := findings_filter hv hitems
    refine ⟨rfl, tree_eq _ v env, tree_eq _ v env, locate_tree hv _ env, locate_tree hv _ env,
      nodup_texts_items hv _ env, ⟨gone, fun d _ i _ => hclosed d i, hitems⟩, ?_, ?_⟩
    · exact (congrArg _ hfound).trans (Finding.filterMap_summary?_filter _)
    · exact (congrArg _ hfound).trans (Finding.filterMap_skipped?_filter _)
  · intro h
    exact scan_honouring_congr hv (items_honouring_of_noIgnoreFiles hv h)

theorem noIgnoreFiles_module (content : String) :
    loopScanner.NoIgnoreFiles (moduleVolume content) topEnvironment where
  general := by
    intro path hp
    cases hp
  nested := by
    have hf : (moduleVolume content).find topEnvironment.cwd loopScanner.root =
        .ok ⟨[], (moduleVolume content).top, Volume.linkLimit⟩ := rfl
    intro names entries hn _ parts hp
    rw [Volume.standing?_eq hf] at hn
    -- The only directory is the top.
    obtain rfl : names = [] := by
      cases names with
      | nil => rfl
      | cons name rest =>
        obtain ⟨child, hl, hr⟩ := Option.bind_eq_some_iff.mp hn
        obtain ⟨es, rfl⟩ := Node.eq_directory_of_at? hr
        have hm := List.mem_singleton.mp (Node.mem_of_lookup hl)
        cases hm
    have hmissing : (moduleVolume content).resolve topEnvironment.cwd loopScanner.root
        ([] ++ parts) = .error .missing := by
      revert parts
      exact List.forall_mem_cons.mpr ⟨rfl, List.forall_mem_singleton.mpr rfl⟩
    rw [hmissing]
    nofun

/-- An ignored directory is gone with the file in it. -/
theorem scan_honouring_loop :
    (loopVolume.Proper ∧
      ((loopScanner.honouring false).scan loopVolume topEnvironment).Pruned
        ((loopScanner.honouring true).scan loopVolume topEnvironment)
        ((loopScanner.honouring false).items loopVolume topEnvironment)
        ((loopScanner.honouring true).items loopVolume topEnvironment) ∧
      ((loopScanner.honouring false).items loopVolume topEnvironment).map Item.text =
        [(".gitignore" : RawText), "b.rs", "c.py", "gen.py", "a", "a/up", "tmp", "tmp/o.py"] ∧
      ((loopScanner.honouring true).items loopVolume topEnvironment).map Item.text =
        [(".gitignore" : RawText), "b.rs", "c.py", "gen.py", "a", "a/up"]) ∧
    ((moduleVolume "def f():\n").Proper ∧
        loopScanner.NoIgnoreFiles (moduleVolume "def f():\n") topEnvironment) ∧
      (loopScanner.honouring true).scan (moduleVolume "def f():\n") topEnvironment =
        (loopScanner.honouring false).scan (moduleVolume "def f():\n") topEnvironment := by
  obtain ⟨hpruned, _⟩ := scan_honouring loopVolume_proper loopScanner topEnvironment
  obtain ⟨_, hsame⟩ := scan_honouring (moduleVolume_proper "def f():\n") loopScanner topEnvironment
  have hf : loopVolume.find topEnvironment.cwd loopScanner.root =
      .ok ⟨[], loopVolume.top, Volume.linkLimit⟩ := rfl
  have hoff : (loopScanner.honouring false).entries loopVolume topEnvironment = _ :=
    entries_loopVolume rfl rfl
  refine ⟨⟨loopVolume_proper, hpruned, ?_, ?_⟩,
    ⟨moduleVolume_proper _, noIgnoreFiles_module _⟩, hsame (noIgnoreFiles_module _)⟩
  · rw [items, hoff]
    decide +kernel
  · rw [items_honouring loopVolume_proper hf, items, hoff]
    decide +kernel

end Scanner

end CodeOutline
