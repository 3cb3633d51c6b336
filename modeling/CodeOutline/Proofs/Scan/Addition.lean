import CodeOutline.Proofs.Report.Exchange
import CodeOutline.Proofs.Scan.Exclude
import CodeOutline.Proofs.Walk.Addition

/-! # Scans after a new file

Where a file of no known language is new in the scanned directory, and no link could lead to it, a
scan lists it in its place and has nothing else to say that it did not say before.
-/

namespace CodeOutline

/-- A report says what another one says and lists one more file of the scanned directory, after the
files with smaller names and before all else. The items are what the lines of the two stand for. -/
structure Report.Gains (name : RawText) (r r' : Report) (items items' : List Item) : Prop where
  root : r'.root = r.root
  tree : r.tree = items.map Item.entry
  tree' : r'.tree = items'.map Item.entry
  items : ∃ before after, items = before ++ after ∧
    items' = before ++ ⟨[name], .file, .file⟩ :: after ∧
    (∀ i ∈ before, i.path.length = 1 ∧ i.Precedes ⟨[name], .file, .file⟩) ∧
    ∀ i ∈ after, i.path.length = 1 → Item.Precedes ⟨[name], .file, .file⟩ i
  files : r'.files = r.files
  skipped : r'.skipped = r.skipped

/-- Globs are asked for files only. -/
theorem Report.Gains.without {name : RawText} {r r' : Report} {items items' : List Item}
    (h : r.Gains name r' items items') (excluded : RawText → Bool) :
    (r.without excluded).Gains name (r'.without excluded) items items' where
  root := h.root
  tree := h.tree
  tree' := h.tree'
  items := h.items
  files := by rw [Report.without, Report.without, h.files]
  skipped := by rw [Report.without, Report.without, h.skipped]

theorem Report.exists_jsonText_without {r : Report} (h : ∃ text, r.jsonText = .ok text)
    (excluded : RawText → Bool) : ∃ text, (r.without excluded).jsonText = .ok text := by
  rw [Report.exists_jsonText_iff] at h ⊢
  obtain ⟨hr, hf, hs⟩ := h
  exact ⟨hr, fun f hm => hf f (List.mem_filter.mp hm).1, fun f hm => hs f (List.mem_filter.mp hm).1⟩

theorem Report.Gains.exists_jsonText {name : RawText} {r r' : Report} {items items' : List Item}
    (h : r.Gains name r' items items') (ht : ∃ text, r.jsonText = .ok text) :
    ∃ text, r'.jsonText = .ok text := by
  rw [Report.exists_jsonText_iff] at ht ⊢
  rwa [h.root, h.files, h.skipped]

namespace Scanner

variable {s : Scanner} {v v' : Volume} {env : Environment} {name : RawText} {content : ByteArray}
  {base base' : Found} {entries : List (RawText × Node)}

theorem examine_of_languageOf?_eq_none {e : Entry}
    (h : e.names.getLast?.bind s.languageOf? = none) : s.examine e = none := by
  rw [examine, h]
  cases e.kind <;> rfl

theorem holds_of_find (hf : v.find env.cwd s.root = .ok base) {node : Node}
    (h : ∀ up m, up ≠ [] → node.at? up = some m → base.node.at? up = some m) :
    (s.walk v base).Holds [] node := by
  intro up m hne hm
  have hat := (Volume.at?_base hf up).trans (h up m hne hm)
  rw [walk]
  dsimp only
  rwa [List.append_nil]

/-! ## A new file

A file is new in the scanned directory, in which no name is a link. It is listed, and the directory
can be opened.
-/

section

variable (hg : s.settings.respectGitignore = false) (hn : Node.Proper (.directory entries))
  (hu : (Node.directory entries).Unlinked) (hname : ProperName name)
  (hv : entries.lookup name = none) (hfile : name.shown ∉ s.settings.ignoreFiles)
  (hext : ∀ extension, Path.extension? name = some extension →
    extension ∉ s.settings.ignoreExtensions)
  (hf : v.find env.cwd s.root = .ok base) (hnode : base.node = .directory entries)
  (hf' : v'.find env.cwd s.root = .ok base')
  (hnode' : base'.node = .directory (Node.setEntry name (.file content) entries))
  (hplace : base'.place = base.place) (hr : v'.refusal = v.refusal)
  (hopen : v.refusal .read base.place = none)
include hg hn hu hname hv hfile hext hf hnode hf' hnode' hplace hr hopen

theorem exists_entries_insert : ∃ before after, s.entries v env = before ++ after ∧
    s.entries v' env = before ++ ⟨[name], .file, (s.walk v' base').find [] [name]⟩ :: after ∧
    (∀ e ∈ before, e.names.length = 1 ∧ e.item.Precedes ⟨[name], .file, .file⟩) ∧
    ∀ e ∈ after, e.names.length = 1 → Item.Precedes ⟨[name], .file, .file⟩ e.item := by
  have hw : s.walk v' base' = (s.walk v base).onto v' base' := rfl
  have hl : (s.walk v' base').leavesOut name .file = false :=
    Walk.leavesOut_eq_false.mpr ⟨nofun, fun _ => ⟨hfile, hext⟩⟩
  have hi : ((s.walk v' base').enter .empty []).ignores ((s.walk v' base').pathOf ([] ++ [name]))
      false = false := by
    rw [Walk.enter_eq_self hg, Walk.ignores_empty]
  have hold : (s.walk v base).Holds [] (.directory entries) :=
    holds_of_find hf fun up m _ hm => by rwa [hnode]
  have hnew : (s.walk v' base').Holds [] (.directory (Node.setEntry name (.file content) entries)) :=
    holds_of_find hf' fun up m _ hm => by rwa [hnode']
  have hstay : (s.walk v' base').Holds [] (.directory entries) := by
    refine holds_of_find hf' fun up m hne hm => ?_
    rw [hnode']
    exact Node.at?_setEntry hv hne hm _
  have ho : (s.walk v' base').opens [] = true := by
    have hshort : s.root.size ≤ Volume.pathLimit := (Volume.takes_of_find hf).short
    rw [Walk.opens, walk]
    dsimp only
    rw [List.append_nil, hplace, hr, hopen, Bool.and_eq_true, decide_eq_true_iff]
    exact ⟨hshort, rfl⟩
  obtain ⟨before, after, hnew, hsame, hbefore, hafter⟩ :=
    Walk.exists_below_insert hn hname hv hnew ho hi hl
  rw [hw] at hstay
  rw [hw, Walk.below_onto hg hplace hr hn hu hold hstay] at hsame
  refine ⟨before, after, ?_, ?_, hbefore, hafter⟩
  · rw [entries_of_find hf, Walk.entries, if_neg (by rw [walk, hg]; exact Bool.false_ne_true),
      ← hsame, ← hnode]
    rfl
  · rw [entries_of_find hf', Walk.entries, if_neg (by rw [walk, hg]; exact Bool.false_ne_true)]
    rw [← hnode'] at hnew
    exact hnew

/-- A new file of no known language changes nothing but the listing. -/
theorem scan_gains (hlang : s.languageOf? name = none) :
    (s.scan v env).Gains name (s.scan v' env) (s.items v env) (s.items v' env) := by
  have hnew : (s.walk v' base').Holds [] (.directory (Node.setEntry name (.file content) entries)) :=
    holds_of_find hf' fun up m _ hm => by rwa [hnode']
  have hleads := Walk.ofTarget_of_insert hn hname hv hnew
  obtain ⟨before, after, hentries, hentries', hbefore, hafter⟩ := exists_entries_insert hg hn hu
    hname hv hfile hext hf hnode hf' hnode' hplace hr hopen
  have hnone : s.examine ⟨[name], .file, (s.walk v' base').find [] [name]⟩ = none :=
    examine_of_languageOf?_eq_none hlang
  have hfindings : (s.entries v' env).filterMap s.examine =
      (s.entries v env).filterMap s.examine := by
    rw [hentries, hentries', List.filterMap_append, List.filterMap_append,
      List.filterMap_cons_none hnone]
  refine ⟨rfl, tree_eq s v env, tree_eq s v' env, ?_, ?_, ?_⟩
  · refine ⟨before.map Entry.item, after.map Entry.item, ?_, ?_, ?_, ?_⟩
    · rw [items, hentries, List.map_append]
    · rw [items, hentries', List.map_append, List.map_cons, Entry.item, hleads]
    · exact List.forall_mem_map.mpr hbefore
    · exact List.forall_mem_map.mpr hafter
  · rw [scan, scan, report, report, hfindings]
  · rw [scan, scan, report, report, hfindings]

end

end Scanner

end CodeOutline
