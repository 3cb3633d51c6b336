import Mathlib.Data.List.Nodup
import CodeOutline.Proofs.Path
import CodeOutline.Proofs.Scan.Finding
import CodeOutline.Proofs.Scan.Tree

/-! # Accounts

A scan accounts for the files of its listing. Each one is in one of the two lists of the report at
most once, in the order of the listing, and which list it is in and with what depends only on its
own path.
-/

namespace CodeOutline

/-- The path of an item as a report writes it. -/
def Item.text (i : Item) : RawText :=
  Path.ofParts i.path

/-- The items of files. -/
def Item.files (is : List Item) : List Item :=
  is.filter (·.kind = .file)

/-- The path of a line, if its names are all shown as they are. -/
def Line.text (l : Line) : RawText :=
  Path.ofParts (l.path.map RawText.ofText)

/-- The lines of files. -/
def Line.files (ls : List Line) : List Line :=
  ls.filter (·.kind = .file)

namespace Finding

variable {fs : List Finding} {f : FileSummary} {k : SkippedFile}

theorem mem_filterMap_summary? : f ∈ fs.filterMap summary? ↔ .summary f ∈ fs := by
  rw [List.mem_filterMap]
  constructor
  · rintro ⟨x, hx, he⟩
    cases x with
    | summary g =>
      cases he
      exact hx
    | skipped g => cases he
  · intro h
    exact ⟨_, h, rfl⟩

theorem paths_perm (fs : List Finding) :
    ((fs.filterMap summary?).map (·.path) ++ (fs.filterMap skipped?).map (·.path)).Perm
      (fs.map path) := by
  induction fs with
  | nil => exact List.Perm.refl _
  | cons x fs ih =>
    cases x with
    | summary f => exact ih.cons f.path
    | skipped k => exact List.perm_middle.trans (ih.cons k.path)

end Finding

namespace Scanner

variable {s : Scanner} {v : Volume} {env : Environment} {languages : LanguageSettings} {i j : Item}
  {e : Entry} {f : Finding}

/-- What a scan finds at an item of its listing. -/
def findingAt (s : Scanner) (v : Volume) (env : Environment) (i : Item) : Option Finding :=
  s.examine ⟨i.path, i.kind, v.resolve env.cwd s.root i.path⟩

/-- The items of files in the listing of a scan. -/
def fileItems (s : Scanner) (v : Volume) (env : Environment) : List Item :=
  Item.files (s.items v env)

theorem examine_of_mem_entries (hv : v.Proper) (he : e ∈ s.entries v env) :
    s.examine e = s.findingAt v env e.item := by
  obtain ⟨base, hf, hl⟩ := lists_of_mem_entries hv he
  have ht := hl.target hv hf
  obtain ⟨names, kind, target⟩ := e
  rw [findingAt]
  exact congrArg (fun t => s.examine ⟨names, kind, t⟩) ht

theorem findings_eq (hv : v.Proper) (s : Scanner) (env : Environment) :
    (s.entries v env).filterMap s.examine =
      (s.fileItems v env).filterMap (s.findingAt v env) := by
  rw [fileItems, Item.files, items, List.filterMap_filter, List.filterMap_map]
  refine List.filterMap_congr fun e he => ?_
  rw [examine_of_mem_entries hv he, Function.comp_apply]
  split
  · rfl
  · rename_i hk
    obtain ⟨names, kind, target⟩ := e
    cases kind with
    | directory => rfl
    | file => exact absurd rfl (of_decide_eq_false (Bool.eq_false_iff.mpr hk))

theorem path_of_mem_items (hv : v.Proper) (hi : i ∈ s.items v env) :
    ∃ up name, i.path = up ++ [name] ∧ ∀ part ∈ up ++ [name], ProperName part := by
  obtain ⟨e, he, rfl⟩ := List.mem_map.mp hi
  obtain ⟨base, hf, up, es, p, hup, hp, rfl, _⟩ := lists_of_mem_entries hv he
  refine ⟨up, p.1, rfl, fun part hpart => ?_⟩
  have hbase := Volume.proper_base hv hf
  rcases List.mem_append.mp hpart with hpart | hpart
  · exact hbase.properName_of_at? hup part hpart
  · obtain rfl := List.mem_singleton.mp hpart
    exact (hbase.at? hup).properName hp

theorem text_inj_of_mem_items (hv : v.Proper) (hi : i ∈ s.items v env) (hj : j ∈ s.items v env)
    (h : i.text = j.text) : i = j := by
  obtain ⟨up, name, hp, hs⟩ := path_of_mem_items hv hi
  obtain ⟨up', name', hp', hs'⟩ := path_of_mem_items hv hj
  have hpath : i.path = j.path := by
    rw [Item.text, Item.text, hp, hp'] at h
    rw [hp, hp']
    exact Path.ofParts_inj (fun n hn => (hs n hn).noSlash) (fun n hn => (hs' n hn).noSlash)
      (by simp) (by simp) h
  exact List.inj_on_of_nodup_map (forest_items hv s env).nodup hi hj hpath

theorem mem_fileItems : i ∈ s.fileItems v env ↔ i ∈ s.items v env ∧ i.kind = .file := by
  rw [fileItems, Item.files, List.mem_filter, decide_eq_true_eq]

theorem eq_of_mem_fileItems (hv : v.Proper) (hi : i ∈ s.fileItems v env) :
    ∃ up name, i = ⟨up ++ [name], .file, i.leads⟩ ∧
      ∀ part ∈ up ++ [name], ProperName part := by
  obtain ⟨hi, hk⟩ := mem_fileItems.mp hi
  obtain ⟨up, name, hp, hs⟩ := path_of_mem_items hv hi
  exact ⟨up, name, Item.ext hp hk rfl, hs⟩

theorem path_of_findingAt (h : s.findingAt v env i = some f) : f.path = i.text :=
  path_of_examine h

/-- Scans that list the same and find the same in the files of some paths say the same of these. -/
theorem findings_filter_congr {t : Scanner} {v' : Volume} {env' : Environment} (hv : v.Proper)
    (hv' : v'.Proper) (ht : t.items v' env' = s.items v env) (keep : RawText → Bool)
    (h : ∀ i ∈ s.fileItems v env, keep i.text = true →
      t.findingAt v' env' i = s.findingAt v env i) :
    ((t.entries v' env').filterMap t.examine).filter (fun f => keep f.path) =
      ((s.entries v env).filterMap s.examine).filter fun f => keep f.path := by
  have hitems : t.fileItems v' env' = s.fileItems v env := by
    unfold fileItems
    rw [ht]
  rw [findings_eq hv', findings_eq hv, hitems, List.filter_filterMap, List.filter_filterMap]
  apply List.filterMap_congr
  intro i hi
  cases hk : keep i.text with
  | true => rw [h i hi hk]
  | false =>
    have hnone : ∀ {s : Scanner} {v env}, (s.findingAt v env i).filter (keep ·.path) = none := by
      intro s v env
      rw [Option.filter_eq_none_iff]
      intro f hf
      rw [path_of_findingAt hf, hk]
      exact Bool.false_ne_true
    rw [hnone, hnone]

theorem findings_congr {t : Scanner} {v' : Volume} {env' : Environment} (hv : v.Proper)
    (hv' : v'.Proper) (ht : t.items v' env' = s.items v env)
    (h : ∀ i ∈ s.fileItems v env, t.findingAt v' env' i = s.findingAt v env i) :
    (t.entries v' env').filterMap t.examine = (s.entries v env).filterMap s.examine := by
  have hf := findings_filter_congr hv hv' ht (fun _ => true) fun i hi _ => h i hi
  simpa using hf

theorem scan_congr {t : Scanner} {v' : Volume} {env' : Environment} (hroot : t.root = s.root)
    (ht : t.items v' env' = s.items v env)
    (hf : (t.entries v' env').filterMap t.examine = (s.entries v env).filterMap s.examine) :
    t.scan v' env' = s.scan v env := by
  have htree : (t.scan v' env').tree = (s.scan v env).tree := by rw [tree_eq, tree_eq, ht]
  rw [scan, report] at htree ⊢
  rw [scan, report] at htree ⊢
  rw [hf, hroot]
  exact congrArg (fun tree => (⟨s.root, tree, _, _⟩ : Report)) htree

theorem findingAt_concat (s : Scanner) (v : Volume) (env : Environment) {up : List RawText}
    {name : RawText} (hi : i = ⟨up ++ [name], .file, i.leads⟩) :
    i.text = Path.ofParts (up ++ [name]) ∧ i.name = name ∧
      s.findingAt v env i =
        s.examine ⟨up ++ [name], .file, v.resolve env.cwd s.root i.path⟩ := by
  have hp : i.path = up ++ [name] := congrArg Item.path hi
  have hk : i.kind = .file := congrArg Item.kind hi
  refine ⟨by rw [Item.text, hp], ?_, by rw [findingAt, hp, hk]⟩
  rw [hi]
  exact Item.name_concat up name .file i.leads

/-- The top directory with one file. -/
def moduleVolume (content : String) : Volume where
  top := .directory [("a.py", .file content.toUTF8)]

theorem moduleVolume_proper (content : String) : (moduleVolume content).Proper :=
  .directory _ (List.nodup_singleton _)
    (List.forall_mem_singleton.mpr (show ProperName "a.py" by decide))
    (List.forall_mem_singleton.mpr (.file content.toUTF8))

/-- A file with a function, whose name is no text. -/
def rawVolume : Volume where
  top := .directory [(⟨[0xFF, 0x2E, 0x70, 0x79]⟩, .file "def f():\n".toUTF8)]

end Scanner

end CodeOutline
