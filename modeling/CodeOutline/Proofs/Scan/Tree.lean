import Mathlib.Data.List.Nodup
import CodeOutline.Proofs.Text.Raw
import CodeOutline.Proofs.Volume.Reordered
import CodeOutline.Proofs.Volume.Spelling
import CodeOutline.Proofs.Walk.Forest
import CodeOutline.Scan

/-! # The listing of a scan

The listing shows exactly the places below the directory that no link leads to, that can be reached
through directories that open, and that the settings do not leave out, each one once, in full order.
So it is the same whatever the orders of the directories are.
-/

namespace CodeOutline

namespace Walk

variable {w : Walk} {cwd name : RawText} {names : List RawText} {kind : EntryKind} {e : Entry}
  {entries : List (RawText × Node)} {p : RawText × Node}

theorem leavesOut_eq_false : w.leavesOut name kind = false ↔
    (kind = .directory → name.shown ∉ w.settings.ignoreDirs) ∧
      (kind ≠ .directory → name.shown ∉ w.settings.ignoreFiles ∧
        ∀ extension, Path.extension? name = some extension →
          extension ∉ w.settings.ignoreExtensions) := by
  cases kind with
  | directory => simp [leavesOut]
  | file =>
    rw [leavesOut]
    cases Path.extension? name <;> simp

section Target

variable (hv : w.volume.Proper) (hb : w.volume.find cwd w.root = .ok w.base)

include hv hb

theorem standing?_of_mem (hn : w.base.node.at? names = some (.directory entries))
    (hp : p ∈ entries) : w.volume.standing? cwd w.root (names ++ [p.1]) = some p.2 := by
  rw [Volume.standing?_eq hb, Node.at?_concat hn]
  exact ((Volume.proper_base hv hb).at? hn).lookup_iff.mpr hp

theorem entryFor_leads_iff (hn : w.base.node.at? names = some (.directory entries))
    (p : RawText × Node) :
    EntryKind.ofTarget (w.entryFor names p).target = .directory ↔
      w.volume.LeadsToDirectory cwd w.root (names ++ [p.1]) := by
  rw [ofTarget_eq_directory, entryFor_target hv hb hn]
  rfl

theorem entryFor_kind_iff (hn : w.base.node.at? names = some (.directory entries))
    (hp : p ∈ entries) :
    (w.entryFor names p).kind = .directory ↔
      w.volume.CountsAsDirectory cwd w.root (names ++ [p.1]) := by
  have hk : (w.entryFor names p).kind = kindOf p.2 (w.entryFor names p).target := rfl
  rw [hk, kindOf_eq_directory, entryFor_leads_iff hv hb hn, Volume.CountsAsDirectory,
    standing?_of_mem hv hb hn hp]
  simp

theorem Lists.target (h : w.Lists [] w.base.node e) :
    e.target = w.volume.resolve cwd w.root e.names := by
  obtain ⟨up, es, p, hup, hp, rfl, _⟩ := h
  exact entryFor_target hv hb hup p

theorem Lists.leads_iff (h : w.Lists [] w.base.node e) :
    e.item.leads = .directory ↔ w.volume.LeadsToDirectory cwd w.root e.names := by
  obtain ⟨up, es, p, hup, hp, rfl, _⟩ := h
  exact entryFor_leads_iff hv hb hup p

theorem Lists.kind_iff (h : w.Lists [] w.base.node e) :
    e.kind = .directory ↔ w.volume.CountsAsDirectory cwd w.root e.names := by
  obtain ⟨up, es, p, hup, hp, rfl, _⟩ := h
  exact entryFor_kind_iff hv hb hup hp

end Target

end Walk

namespace Scanner

variable {s : Scanner} {v v' : Volume} {env : Environment} {base : Found} {names : List RawText}
  {e : Entry} {i : Item}

/-- The walk of a scanner below its directory. -/
def walk (s : Scanner) (v : Volume) (base : Found) : Walk :=
  ⟨v, s.root, base, s.settings⟩

/-- A place that the listing shows. -/
structure Shows (s : Scanner) (v : Volume) (env : Environment) (names : List RawText) : Prop where
  below_root : names ≠ []
  /-- Something stands there, and only directories are on the way, no links. -/
  stands : (v.standing? env.cwd s.root names).isSome
  /-- The directories on the way can be read by their paths. -/
  opened : ∀ up, up <+: names → up ≠ names → v.Opens env.cwd s.root up
  /-- No directory on the way, and not the place itself, is a directory to leave out. -/
  entered : ∀ up name, up ++ [name] <+: names →
    v.CountsAsDirectory env.cwd s.root (up ++ [name]) → name.shown ∉ s.settings.ignoreDirs
  /-- What is no directory is no file to leave out. -/
  kept : ∀ up name, names = up ++ [name] → ¬ v.CountsAsDirectory env.cwd s.root names →
    name.shown ∉ s.settings.ignoreFiles ∧
      ∀ extension, Path.extension? name = some extension →
        extension ∉ s.settings.ignoreExtensions

theorem Shows.of_lists (hv : v.Proper) (hf : v.find env.cwd s.root = .ok base)
    (h : (s.walk v base).Lists [] base.node e) : s.Shows v env e.names := by
  have hk := h.kind_iff hv hf
  obtain ⟨up, es, p, hup, hp, rfl, hl, hd, ho⟩ := h
  obtain ⟨hdir, hfile⟩ := Walk.leavesOut_eq_false.mp hl
  have hnames : ((s.walk v base).entryFor ([] ++ up) p).names = up ++ [p.1] := rfl
  rw [hnames] at hk ⊢
  refine ⟨by simp, ?_, ?_, ?_, ?_⟩
  · have hstands := Walk.standing?_of_mem (w := s.walk v base) hv hf hup hp
    exact Option.isSome_iff_exists.mpr ⟨_, hstands⟩
  · intro way hway hne
    have hway : way <+: up := (List.prefix_concat_iff.mp hway).resolve_left hne
    obtain ⟨rest, rfl⟩ := hway
    obtain ⟨es', hes'⟩ := Node.exists_directory_of_at?_append hup
    exact (Walk.opens_iff (w := s.walk v base) hv hf hes').mp (ho way (List.prefix_append _ _))
  · intro q name hq hlead
    rcases List.prefix_concat_iff.mp hq with heq | hq
    · obtain ⟨rfl, rfl⟩ := List.append_singleton_inj.mp heq
      exact hdir (hk.mpr hlead)
    · have hmem : name ∈ up := hq.subset (List.mem_append_right q (List.mem_singleton.mpr rfl))
      have hn : s.settings.ignoreDirs.contains name.shown = false := hd name hmem
      simpa using hn
  · intro q name heq hlead
    obtain ⟨_, rfl⟩ := List.append_singleton_inj.mp heq
    exact hfile fun hkd => hlead (hk.mp hkd)

theorem Shows.exists_lists (hv : v.Proper) (hf : v.find env.cwd s.root = .ok base)
    (h : s.Shows v env names) : ∃ e, (s.walk v base).Lists [] base.node e ∧ e.names = names := by
  obtain ⟨up, name, rfl⟩ : ∃ up name, names = up ++ [name] :=
    ⟨_, _, (List.dropLast_append_getLast h.below_root).symm⟩
  have hstands := h.stands
  rw [Volume.standing?_eq hf, Option.isSome_iff_exists] at hstands
  obtain ⟨m, hm⟩ := hstands
  obtain ⟨es, hn, hlookup⟩ := Node.exists_directory_of_at?_concat hm
  have hp := Node.mem_of_lookup hlookup
  have hk := Walk.entryFor_kind_iff (w := s.walk v base) hv hf hn hp
  refine ⟨_, ⟨up, es, (name, m), hn, hp, rfl, ?_, ?_, ?_⟩, rfl⟩
  · refine Walk.leavesOut_eq_false.mpr ⟨fun hdir => ?_, fun hfile => ?_⟩
    · exact h.entered up name (List.prefix_refl _) (hk.mp hdir)
    · exact h.kept up name rfl fun hlead => hfile (hk.mpr hlead)
  · -- A name on the way is the last one of a part of the way that is a directory.
    intro x hx
    obtain ⟨q, rest, rfl⟩ := List.append_of_mem hx
    have hway : q ++ x :: rest = q ++ [x] ++ rest := by simp
    rw [hway] at hn
    obtain ⟨es', hdir⟩ := Node.exists_directory_of_at?_append hn
    have hx : x.shown ∉ s.settings.ignoreDirs :=
      h.entered q x ⟨rest ++ [name], by simp⟩
        (Or.inl ⟨es', (Volume.standing?_eq hf _).trans hdir⟩)
    rw [List.contains_eq_mem, decide_eq_false_iff_not]
    exact hx
  · rintro way ⟨rest, rfl⟩
    obtain ⟨es', hes'⟩ := Node.exists_directory_of_at?_append hn
    refine (Walk.opens_iff (w := s.walk v base) hv hf hes').mpr (h.opened way ⟨rest ++ [name], ?_⟩ ?_)
    · simp
    · intro he
      simpa using congrArg List.length he

/-! ## Items of the listing -/

/-- What the entries of a scan stand for, in the order of the listing. -/
def items (s : Scanner) (v : Volume) (env : Environment) : List Item :=
  (s.entries v env).map Entry.item

theorem tree_eq (s : Scanner) (v : Volume) (env : Environment) :
    (s.scan v env).tree = (s.items v env).map Item.entry := by
  rw [items, List.map_map]
  refine List.map_congr_left fun e _ => ?_
  simp only [treeEntry, Function.comp_apply, Item.entry, Item.line, Line.entry, Entry.item,
    List.length_map, List.getLast?_map]
  cases e.names.getLast? <;> rfl

theorem entries_of_find (hf : v.find env.cwd s.root = .ok base) :
    s.entries v env = (s.walk v base).entries env := by
  rw [entries, hf]
  rfl

theorem entries_of_not_find {error : FileError} (hf : v.find env.cwd s.root = .error error) :
    s.entries v env = [] := by
  rw [entries, hf]

theorem forest_items (hv : v.Proper) (s : Scanner) (env : Environment) :
    Forest [] (s.items v env) := by
  rw [items]
  cases hf : v.find env.cwd s.root with
  | error e =>
    rw [entries_of_not_find hf]
    exact Forest.nil []
  | ok base =>
    rw [entries_of_find hf, Walk.entries]
    exact Walk.forest_below (Volume.proper_base hv hf) _ []

theorem locate_tree (hv : v.Proper) (s : Scanner) (env : Environment) :
    Line.locate (s.scan v env).tree = (s.items v env).map Item.line := by
  rw [tree_eq, (forest_items hv s env).locate_eq]

/-- Every entry is for a place below the directory of the scanner. -/
theorem lists_of_mem_entries (hv : v.Proper) (he : e ∈ s.entries v env) :
    ∃ base, v.find env.cwd s.root = .ok base ∧ (s.walk v base).Lists [] base.node e := by
  cases hf : v.find env.cwd s.root with
  | error error =>
    rw [entries_of_not_find hf] at he
    cases he
  | ok base =>
    rw [entries_of_find hf, Walk.entries] at he
    exact ⟨base, rfl, Walk.lists_of_mem_below (Volume.proper_base hv hf) he⟩

theorem shows_of_mem_entries (hv : v.Proper) (he : e ∈ s.entries v env) :
    s.Shows v env e.names := by
  obtain ⟨base, hf, hl⟩ := lists_of_mem_entries hv he
  exact Shows.of_lists hv hf hl

theorem exists_mem_entries_iff (hv : v.Proper) (hg : s.settings.respectGitignore = false) :
    (∃ e ∈ s.entries v env, e.names = names) ↔ s.Shows v env names := by
  constructor
  · rintro ⟨e, he, rfl⟩
    exact shows_of_mem_entries hv he
  · intro h
    cases hf : v.find env.cwd s.root with
    | error error =>
      have hstands := h.stands
      rw [Volume.standing?, hf] at hstands
      cases hstands
    | ok base =>
      obtain ⟨e, hl, hnames⟩ := h.exists_lists hv hf
      refine ⟨e, ?_, hnames⟩
      rw [entries_of_find hf, Walk.entries, if_neg (by rw [walk, hg]; exact Bool.false_ne_true)]
      exact (Walk.mem_below_empty_iff hg (Volume.proper_base hv hf)).mpr hl

theorem kind_iff_of_mem_items (hv : v.Proper) (hi : i ∈ s.items v env) :
    i.kind = .directory ↔ v.CountsAsDirectory env.cwd s.root i.path := by
  obtain ⟨e, he, rfl⟩ := List.mem_map.mp hi
  obtain ⟨base, hf, hl⟩ := lists_of_mem_entries hv he
  have hk := hl.kind_iff hv hf
  exact hk

theorem leads_iff_of_mem_items (hv : v.Proper) (hi : i ∈ s.items v env) :
    i.leads = .directory ↔ v.LeadsToDirectory env.cwd s.root i.path := by
  obtain ⟨e, he, rfl⟩ := List.mem_map.mp hi
  obtain ⟨base, hf, hl⟩ := lists_of_mem_entries hv he
  have hk := hl.leads_iff hv hf
  exact hk

/-- A listed place is listed for every tree of the same shape. -/
theorem Shows.of_sameShape (ha : v.top.SameShape v'.top) (hr : v'.refusal = v.refusal)
    (h : s.Shows v env names) : s.Shows v' env names where
  below_root := h.below_root
  stands := Volume.isSome_standing?_of_sameShape ha h.stands
  opened up hp hne := (Volume.opens_of_sameShape ha hr _ _ _).mp (h.opened up hp hne)
  entered up name hp hd :=
    h.entered up name hp ((Volume.countsAsDirectory_of_sameShape ha _ _ _).mpr hd)
  kept up name hn hd := h.kept up name hn fun hd' =>
    hd ((Volume.countsAsDirectory_of_sameShape ha _ _ _).mp hd')

theorem mem_items_iff (hv : v.Proper) (hg : s.settings.respectGitignore = false) :
    i ∈ s.items v env ↔ s.Shows v env i.path ∧
      (i.kind = .directory ↔ v.CountsAsDirectory env.cwd s.root i.path) ∧
        (i.leads = .directory ↔ v.LeadsToDirectory env.cwd s.root i.path) := by
  constructor
  · intro hi
    have hk := kind_iff_of_mem_items hv hi
    have hl := leads_iff_of_mem_items hv hi
    obtain ⟨e, he, rfl⟩ := List.mem_map.mp hi
    exact ⟨shows_of_mem_entries hv he, hk, hl⟩
  · rintro ⟨hs, hk, hl⟩
    obtain ⟨e, he, hnames⟩ := (exists_mem_entries_iff hv hg).mpr hs
    have hi : e.item ∈ s.items v env := List.mem_map_of_mem he
    have hke := kind_iff_of_mem_items hv hi
    have hle := leads_iff_of_mem_items hv hi
    have hpath : e.item.path = i.path := hnames
    rw [hpath, ← hk] at hke
    rw [hpath, ← hl] at hle
    have heq : e.item = i :=
      Item.ext hpath (EntryKind.eq_of_iff hke) (EntryKind.eq_of_iff hle)
    rwa [← heq]

theorem items_congr {t : Scanner} {env' : Environment} (hv : v.Proper) (hv' : v'.Proper)
    (hg : s.settings.respectGitignore = false) (hg' : t.settings.respectGitignore = false)
    (hs : ∀ names, t.Shows v' env' names ↔ s.Shows v env names)
    (hk : ∀ names, s.Shows v env names →
      (v'.CountsAsDirectory env'.cwd t.root names ↔ v.CountsAsDirectory env.cwd s.root names) ∧
        (v'.LeadsToDirectory env'.cwd t.root names ↔
          v.LeadsToDirectory env.cwd s.root names)) :
    t.items v' env' = s.items v env := by
  refine (forest_items hv' t env').ext (forest_items hv s env) fun i => ?_
  rw [mem_items_iff hv' hg', mem_items_iff hv hg, hs]
  refine and_congr_right fun hshows => ?_
  rw [(hk _ hshows).1, (hk _ hshows).2]

/-- The listing goes by the shape of the tree. -/
theorem items_eq_of_sameShape (env : Environment) (hv : v.Proper) (hv' : v'.Proper)
    (hg : s.settings.respectGitignore = false) (ha : v.top.SameShape v'.top)
    (hr : v'.refusal = v.refusal) : s.items v' env = s.items v env :=
  items_congr hv hv' hg hg
    (fun _ => ⟨fun h => h.of_sameShape ha.symm hr.symm, fun h => h.of_sameShape ha hr⟩)
    fun _ _ => ⟨(Volume.countsAsDirectory_of_sameShape ha _ _ _).symm,
      (Volume.leadsToDirectory_of_sameShape ha _ _ _).symm⟩

/-- An ignore file, a file with a function, a link that leads nowhere, a file to leave out, a link
back to the top, and a file to ignore. -/
def loopVolume : Volume where
  top := .directory [(".gitignore", .file "tmp\n".toUTF8),
    ("b.rs", .file "fn b(x: u8) \x7b\x7d".toUTF8), ("c.py", .link "missing"),
    ("gen.py", .file "def g():\n".toUTF8), ("a", .directory [("up", .link "..")]),
    ("tmp", .directory [("o.py", .file "def o():\n".toUTF8)])]

def loopScanner : Scanner :=
  ⟨"/", .default, .builtin, []⟩

def topEnvironment : Environment :=
  ⟨"/", none, none, none⟩

theorem loopVolume_proper : loopVolume.Proper := by
  have ha : Node.Proper (.directory [("up", .link "..")]) :=
    .directory _ (by decide) (by decide) (List.forall_mem_singleton.mpr (.link ".."))
  have ht : Node.Proper (.directory [("o.py", .file "def o():\n".toUTF8)]) :=
    .directory _ (by decide) (by decide) (List.forall_mem_singleton.mpr (.file _))
  exact .directory _ (by decide) (by decide)
    (List.forall_mem_cons.mpr ⟨.file _, List.forall_mem_cons.mpr ⟨.file _,
      List.forall_mem_cons.mpr ⟨.link _, List.forall_mem_cons.mpr ⟨.file _,
        List.forall_mem_cons.mpr ⟨ha, List.forall_mem_singleton.mpr ht⟩⟩⟩⟩⟩)

theorem entries_loopVolume (hroot : s.root = "/") (hs : s.settings = .default) :
    s.entries loopVolume topEnvironment =
      [⟨[".gitignore"], .file, .ok ⟨.file "tmp\n".toUTF8, none⟩⟩,
        ⟨["b.rs"], .file, .ok ⟨.file "fn b(x: u8) \x7b\x7d".toUTF8, none⟩⟩,
        ⟨["c.py"], .file, .error .missing⟩,
        ⟨["gen.py"], .file, .ok ⟨.file "def g():\n".toUTF8, none⟩⟩,
        ⟨["a"], .directory, .ok ⟨.directory [("up", .link "..")], none⟩⟩,
        ⟨["a", "up"], .directory, .ok ⟨loopVolume.top, none⟩⟩,
        ⟨["tmp"], .directory, .ok ⟨.directory [("o.py", .file "def o():\n".toUTF8)], none⟩⟩,
        ⟨["tmp", "o.py"], .file, .ok ⟨.file "def o():\n".toUTF8, none⟩⟩] := by
  let w : Walk := ⟨loopVolume, "/", ⟨[], loopVolume.top, Volume.linkLimit⟩, .default⟩
  have hf : loopVolume.find topEnvironment.cwd s.root =
      .ok ⟨[], loopVolume.top, Volume.linkLimit⟩ := by
    rw [hroot]
    rfl
  have hw : s.walk loopVolume ⟨[], loopVolume.top, Volume.linkLimit⟩ = w := by
    rw [walk, hroot, hs]
  have hfile (names : List RawText) (content : ByteArray) :
      w.below .empty names (.file content) = [] := Walk.below_eq_nil fun h => by cases h
  have hlink (names : List RawText) (target : RawText) :
      w.below .empty names (.link target) = [] := Walk.below_eq_nil fun h => by cases h
  have ha : w.below .empty ["a"] (.directory [("up", .link "..")]) =
      [w.entryFor ["a"] ("up", .link "..")] := by
    rw [Walk.below_of_pairwise rfl, List.flatMap_singleton, hlink] <;> decide +kernel
  have ht : w.below .empty ["tmp"] (.directory [("o.py", .file "def o():\n".toUTF8)]) =
      [w.entryFor ["tmp"] ("o.py", .file "def o():\n".toUTF8)] := by
    rw [Walk.below_of_pairwise rfl, List.flatMap_singleton, hfile] <;> decide +kernel
  rw [entries_of_find hf, hw, Walk.entries_of_pairwise rfl rfl]
  · simp only [List.flatMap_cons, List.flatMap_nil, ha, ht, hfile, hlink]
    rfl
  all_goals decide +kernel

/-- The top directory under the longest path that it has. -/
def farScanner : Scanner :=
  { loopScanner with root := Volume.slashes Volume.pathLimit }

theorem find_farScanner (v : Volume) (env : Environment) :
    v.find env.cwd farScanner.root = .ok ⟨[], v.top, Volume.linkLimit⟩ :=
  Volume.find_slashes (by decide) (Nat.le_refl _) v _

theorem entries_of_shut {entries : List (RawText × Node)} (hf : v.find env.cwd s.root = .ok base)
    (hb : base.node = .directory entries) (hg : s.settings.respectGitignore = false)
    (ho : (s.walk v base).opens [] = true)
    (hl : ∀ p ∈ entries, (s.walk v base).leavesOut p.1 ((s.walk v base).entryFor [] p).kind = false)
    (hn : ∀ p ∈ entries, p.2.isDirectory = true → (s.walk v base).opens [p.1] = false)
    (h : entries.Pairwise fun p q =>
      (EntryKind.ofTarget ((s.walk v base).entryFor [] p).target).Precedes p.1
        (.ofTarget ((s.walk v base).entryFor [] q).target) q.1) :
    s.entries v env = entries.map ((s.walk v base).entryFor []) := by
  rw [entries_of_find hf, Walk.entries_of_pairwise hb hg ho hl h, List.map_eq_flatMap]
  exact List.flatMap_congr fun p hp => by rw [Walk.below_eq_nil (hn p hp)]

end Scanner

end CodeOutline
