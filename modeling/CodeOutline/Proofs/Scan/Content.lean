import CodeOutline.Proofs.Scan.Accounts
import CodeOutline.Proofs.Scan.Exclude
import CodeOutline.Proofs.Volume.Write

/-! # The content of one file

What is in a file has no say in the listing, and of the two lists of a report it decides only what
is said under paths that lead to the file. A file that is overlooked under all its paths is not even
read.
-/

namespace CodeOutline.Scanner

open Volume (SameBut SameTarget)

/-- Files of this name in a directory are not read: they are hidden, or pruned with a directory on
the way, or excluded, or no language is known for their extension. -/
inductive Overlooks (s : Scanner) (up : List RawText) (name : RawText) : Prop
  | hidden : name.shown ∈ s.settings.ignoreFiles → Overlooks s up name
  | hiddenExtension (extension : String) : Path.extension? name = some extension →
    extension ∈ s.settings.ignoreExtensions → Overlooks s up name
  | pruned (directory : RawText) : directory ∈ up → directory.shown ∈ s.settings.ignoreDirs →
    Overlooks s up name
  | excluded : s.isExcluded (Path.ofParts (up ++ [name])) = true → Overlooks s up name
  | unknown : s.languageOf? name = none → Overlooks s up name

variable {s : Scanner} {v v' : Volume} {env : Environment} {places : List (List RawText)}
  {target target' : Except FileError Target} {up : List RawText} {name : RawText} {i : Item}

theorem findingFor_of_sameTarget (h : SameTarget target target') (s : Scanner) (path : RawText)
    (language : Language) :
    s.findingFor path language target' = s.findingFor path language target := by
  cases h with
  | error e => rfl
  | ok refusal h =>
    cases h with
    | refl n => rfl
    | directory entries others => rfl

theorem examine_of_sameTarget (h : SameTarget target target') (s : Scanner) (names : List RawText)
    (kind : EntryKind) : s.examine ⟨names, kind, target'⟩ = s.examine ⟨names, kind, target⟩ := by
  unfold examine
  simp only [findingFor_of_sameTarget h]

theorem findingAt_of_sameBut (hv : v.Proper) (h : v.SameBut places v')
    (hi : i ∈ s.fileItems v env)
    (hn : ¬ v.leadsInto env.cwd s.root places i.text = true) :
    s.findingAt v' env i = s.findingAt v env i := by
  obtain ⟨up, name, he, hs⟩ := eq_of_mem_fileItems hv hi
  obtain ⟨ht, _⟩ := findingAt_concat s v env he
  have hp : i.path = up ++ [name] := congrArg Item.path he
  rw [ht] at hn
  rw [findingAt, findingAt, hp]
  exact examine_of_sameTarget (h.sameTarget (fun n hn => (hs n hn).noSlash) (by simp) hn) s _ _

theorem not_leftOut_of_mem_fileItems (hv : v.Proper) (hi : i ∈ s.fileItems v env)
    (hp : i.path = up ++ [name]) :
    (name.shown ∉ s.settings.ignoreFiles ∧ ∀ extension, Path.extension? name = some extension →
      extension ∉ s.settings.ignoreExtensions) ∧
        ∀ directory ∈ up, directory.shown ∉ s.settings.ignoreDirs := by
  obtain ⟨hi, hk⟩ := mem_fileItems.mp hi
  obtain ⟨e, he, rfl⟩ := List.mem_map.mp hi
  obtain ⟨base, hf, up', es, p, _, _, rfl, hleaves, hdirs, _⟩ := lists_of_mem_entries hv he
  obtain ⟨rfl, rfl⟩ := List.append_singleton_inj.mp (show [] ++ up' ++ [p.1] = up ++ [name] from hp)
  refine ⟨(Walk.leavesOut_eq_false.mp hleaves).2 fun hd => ?_, fun directory hd => ?_⟩
  · cases hk.symm.trans hd
  · have hc : s.settings.ignoreDirs.contains directory.shown = false := hdirs directory hd
    simpa using hc

theorem stands_of_mem_items (hv : v.Proper) (hi : i ∈ s.items v env) :
    (v.standing? env.cwd s.root i.path).isSome := by
  obtain ⟨e, he, rfl⟩ := List.mem_map.mp hi
  exact (shows_of_mem_entries hv he).stands

theorem findingAt_of_overlooks (hv : v.Proper) (hi : i ∈ s.fileItems v env)
    (hp : i.path = up ++ [name]) (h : s.Overlooks up name) (v' : Volume) (env' : Environment) :
    s.findingAt v' env' i = none := by
  obtain ⟨⟨hfile, hext⟩, hdirs⟩ := not_leftOut_of_mem_fileItems hv hi hp
  have hk := (mem_fileItems.mp hi).2
  rw [findingAt, hp, hk, examine_concat]
  cases h with
  | hidden h => exact absurd h hfile
  | hiddenExtension extension he h => exact absurd h (hext extension he)
  | pruned directory hd h => exact absurd h (hdirs directory hd)
  | excluded h =>
    split
    · rw [if_pos h]
    · rfl
  | unknown h => rw [h]

theorem build_of_sameBut (h : v.SameBut places v') (env : Environment) (plan : ScanPlan) :
    build v' env plan = build v env plan := by
  rw [build, build, Volume.isDirectory_of_sameShape h.shape]

theorem without_scan (s : Scanner) (v : Volume) (env : Environment) (excluded : RawText → Bool) :
    (s.scan v env).without excluded =
      let findings := ((s.entries v env).filterMap s.examine).filter fun f => !excluded f.path
      ⟨s.root, (s.scan v env).tree, findings.filterMap Finding.summary?,
        findings.filterMap Finding.skipped?⟩ := by
  dsimp only
  rw [Finding.filterMap_summary?_filter fun path => !excluded path,
    Finding.filterMap_skipped?_filter fun path => !excluded path]
  rfl

/-- The content of a file affects only what is said under paths that lead to the file, and nothing
at all if it is overlooked under each of them. -/
theorem scan_sameBut (hv : v.Proper) (hv' : v'.Proper) (hg : s.settings.respectGitignore = false)
    (h : v.SameBut places v') (env : Environment) :
    (∀ plan, build v' env plan = build v env plan) ∧
    (s.scan v' env).tree = (s.scan v env).tree ∧
    (s.scan v' env).without (v.leadsInto env.cwd s.root places) =
      (s.scan v env).without (v.leadsInto env.cwd s.root places) ∧
    ((∀ up name, (v.standing? env.cwd s.root (up ++ [name])).isSome →
        v.leadsInto env.cwd s.root places (Path.ofParts (up ++ [name])) = true →
          s.Overlooks up name) →
      s.scan v' env = s.scan v env) := by
  have hitems := items_eq_of_sameShape env hv hv' hg h.shape h.refusal
  have ht : (s.scan v' env).tree = (s.scan v env).tree := by rw [tree_eq, tree_eq, hitems]
  refine ⟨build_of_sameBut h env, ht, ?_, ?_⟩
  · have hf := findings_filter_congr hv hv' hitems
      (fun path => !v.leadsInto env.cwd s.root places path) fun i hi hk =>
        findingAt_of_sameBut hv h hi (by simpa using hk)
    rw [without_scan, without_scan, ht, hf]
  · intro hover
    have hf := findings_congr (s := s) hv hv' hitems fun i hi => by
      by_cases hn : v.leadsInto env.cwd s.root places i.text = true
      · obtain ⟨up, name, he, _⟩ := eq_of_mem_fileItems hv hi
        have hp : i.path = up ++ [name] := congrArg Item.path he
        have hs := stands_of_mem_items hv (mem_fileItems.mp hi).1
        rw [hp] at hs
        rw [Item.text, hp] at hn
        have ho := hover up name hs hn
        rw [findingAt_of_overlooks hv hi hp ho, findingAt_of_overlooks hv hi hp ho]
      · exact findingAt_of_sameBut hv h hi hn
    exact scan_congr rfl hitems hf

/-- A file and a link to it. -/
def aliasVolume (content : ByteArray) : Volume where
  top := .directory [("b.rs", .file content), ("c", .link "b.rs")]

def aliasScanner : Scanner :=
  ⟨"/", { ScanSettings.default with ignoreFiles := ["b.rs"] }, .builtin, []⟩

theorem aliasVolume_proper (content : ByteArray) : (aliasVolume content).Proper := by
  apply Node.Proper.directory
  · change [("b.rs" : RawText), "c"].Nodup
    decide
  · exact List.forall_mem_cons.mpr
      ⟨show ProperName "b.rs" by decide, List.forall_mem_singleton.mpr (by decide)⟩
  · exact List.forall_mem_cons.mpr ⟨.file content, List.forall_mem_singleton.mpr (.link "b.rs")⟩

theorem aliasVolume_sameBut (content other : ByteArray) :
    (aliasVolume content).SameBut [["b.rs"]] (aliasVolume other) := by
  have hf : (aliasVolume content).top.at? ["b.rs"] = some (.file content) := rfl
  have hput : (aliasVolume content).put ["b.rs"] (.file other) = aliasVolume other := rfl
  rw [← hput]
  exact (Volume.rewritten_of_file hf other).sameBut hf

theorem aliasScanner_overlooks {content : ByteArray}
    (h : ((aliasVolume content).standing? topEnvironment.cwd aliasScanner.root
      (up ++ [name])).isSome) : aliasScanner.Overlooks up name := by
  have hfind : (aliasVolume content).find topEnvironment.cwd aliasScanner.root =
      .ok ⟨[], (aliasVolume content).top, Volume.linkLimit⟩ := rfl
  rw [Volume.standing?_eq hfind, Option.isSome_iff_exists] at h
  obtain ⟨m, hm⟩ := h
  obtain ⟨entries, hup, hl⟩ := Node.exists_directory_of_at?_concat hm
  cases up with
  | nil =>
    cases hup
    have hmem := Node.mem_of_lookup hl
    simp only [List.mem_cons, Prod.mk.injEq, List.not_mem_nil, or_false] at hmem
    rcases hmem with ⟨rfl, _⟩ | ⟨rfl, _⟩
    · exact Overlooks.hidden (by decide +kernel)
    · exact Overlooks.unknown (by decide +kernel)
  | cons other rest =>
    obtain ⟨child, hc, hchild⟩ := Option.bind_eq_some_iff.mp hup
    obtain ⟨es, rfl⟩ := Node.eq_directory_of_at? hchild
    have hmem := Node.mem_of_lookup hc
    simp at hmem

theorem scan_sameBut_alias :
    ((aliasVolume .empty).Proper ∧ (aliasVolume "fn f() {}".toUTF8).Proper ∧
        aliasScanner.settings.respectGitignore = false ∧
        (aliasVolume .empty).SameBut [["b.rs"]] (aliasVolume "fn f() {}".toUTF8)) ∧
      (∀ plan, build (aliasVolume "fn f() {}".toUTF8) topEnvironment plan =
        build (aliasVolume .empty) topEnvironment plan) ∧
      (aliasScanner.scan (aliasVolume "fn f() {}".toUTF8) topEnvironment).without
          ((aliasVolume .empty).leadsInto topEnvironment.cwd aliasScanner.root [["b.rs"]]) =
        (aliasScanner.scan (aliasVolume .empty) topEnvironment).without
          ((aliasVolume .empty).leadsInto topEnvironment.cwd aliasScanner.root [["b.rs"]]) ∧
      aliasScanner.scan (aliasVolume "fn f() {}".toUTF8) topEnvironment =
        aliasScanner.scan (aliasVolume .empty) topEnvironment := by
  have hsame := aliasVolume_sameBut .empty "fn f() {}".toUTF8
  obtain ⟨hbuild, _, hwithout, hover⟩ := scan_sameBut (s := aliasScanner)
    (aliasVolume_proper .empty) (aliasVolume_proper _) rfl hsame topEnvironment
  exact ⟨⟨aliasVolume_proper _, aliasVolume_proper _, rfl, hsame⟩, hbuild, hwithout,
    hover fun _ _ hs _ => aliasScanner_overlooks hs⟩

end CodeOutline.Scanner
