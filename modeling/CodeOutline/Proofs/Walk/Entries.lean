import CodeOutline.Proofs.Walk.Branch

/-! # Entries of a walk

Every entry is for a name in a directory of the tree, reached through directories that can be opened
and that the settings do not leave out. Where no ignore file is honoured these are all the entries.
-/

namespace CodeOutline.Walk

variable {w : Walk} {layers : Ignore.Layers} {names up : List RawText} {node m : Node} {e : Entry}
  {entries : List (RawText × Node)} {p : RawText × Node}

theorem ofTarget_eq_directory {t : Except FileError Target} :
    EntryKind.ofTarget t = .directory ↔ ∃ es refusal, t = .ok ⟨.directory es, refusal⟩ := by
  cases t with
  | error e => simp [EntryKind.ofTarget]
  | ok t =>
    obtain ⟨node, refusal⟩ := t
    cases node <;> simp [EntryKind.ofTarget, Node.isDirectory]

theorem kindOf_eq_directory {t : Except FileError Target} :
    kindOf node t = .directory ↔
      (∃ es, node = .directory es) ∨
        (∃ target, node = .link target) ∧ EntryKind.ofTarget t = .directory := by
  cases node <;> simp [kindOf]

/-- The walk has an entry for a name in a directory below a place. -/
def Lists (w : Walk) (names : List RawText) (node : Node) (e : Entry) : Prop :=
  ∃ up es p, node.at? up = some (.directory es) ∧ p ∈ es ∧ e = w.entryFor (names ++ up) p ∧
    w.leavesOut p.1 e.kind = false ∧
      (∀ name ∈ up, w.settings.ignoreDirs.contains name.shown = false) ∧
        ∀ way, way <+: up → w.opens (names ++ way) = true

theorem mem_below_directory : e ∈ w.below layers names (.directory entries) ↔
    w.opens names = true ∧ ∃ p ∈ entries, ((w.enter layers names).ignores (w.pathOf (w.entryFor names p).names)
        p.2.isDirectory = false ∧ w.leavesOut p.1 (w.entryFor names p).kind = false) ∧
      (e = w.entryFor names p ∨
        e ∈ w.below (w.enter layers names) (w.entryFor names p).names p.2) := by
  rw [below_directory, List.mem_ite_nil_right, List.mem_flatMap]
  refine and_congr_right' ?_
  constructor
  · rintro ⟨b, hb, he⟩
    obtain ⟨p, hp, hb⟩ := mem_sorted.mp hb
    obtain ⟨hk, rfl⟩ := branch?_eq_some.mp hb
    exact ⟨p, hp, hk, List.mem_cons.mp he⟩
  · rintro ⟨p, hp, hk, he⟩
    exact ⟨_, mem_sorted.mpr ⟨p, hp, branch?_eq_some.mpr ⟨hk, rfl⟩⟩, List.mem_cons.mpr he⟩

/-- A walk has no other entries, whatever it ignores. -/
theorem lists_of_mem_below (hn : node.Proper) (h : e ∈ w.below layers names node) :
    w.Lists names node e := by
  induction node using Node.induct generalizing layers names with
  | directory entries ih =>
    obtain ⟨ho, p, hp, ⟨_, hl⟩, he⟩ := mem_below_directory.mp h
    rcases he with rfl | he
    · refine ⟨[], entries, p, rfl, hp, by rw [List.append_nil], hl, by simp, fun way hw => ?_⟩
      rwa [List.prefix_nil.mp hw, List.append_nil]
    · obtain ⟨up, es, q, hup, hq, heq, hlq, hd, hopens⟩ := ih p hp (hn.child hp) he
      obtain ⟨es', hes'⟩ := Node.eq_directory_of_at? hup
      obtain ⟨name, child⟩ := p
      obtain rfl : child = .directory es' := hes'
      have hnames : ∀ way, names ++ [name] ++ way = names ++ name :: way := by simp
      refine ⟨name :: up, es, q, ?_, hq, ?_, hlq, ?_, ?_⟩
      · rw [Node.at?_directory, hn.lookup_iff.mpr hp]
        exact hup
      · rw [heq, ← hnames]
        rfl
      · intro x hx
        rcases List.mem_cons.mp hx with rfl | hx
        · exact hl
        · exact hd x hx
      · intro way hw
        rcases List.prefix_cons_iff.mp hw with rfl | ⟨rest, rfl, hr⟩
        · rwa [List.append_nil]
        · rw [← hnames]
          exact hopens rest hr
  | file content => rw [below] at h; cases h
  | link target => rw [below] at h; cases h
  | device => rw [below] at h; cases h

theorem ignores_empty (path : RawText) (isDirectory : Bool) :
    Ignore.Layers.empty.ignores path isDirectory = false := rfl

theorem enter_eq_self (hg : w.settings.respectGitignore = false) (layers : Ignore.Layers)
    (names : List RawText) : w.enter layers names = layers := by
  rw [enter, hg, if_neg Bool.false_ne_true]

/-- No directory that the walk comes to has ignore rules. -/
def Plain (w : Walk) (names : List RawText) (node : Node) : Prop :=
  ∀ up es, node.at? up = some (.directory es) →
    (∀ name ∈ up, w.settings.ignoreDirs.contains name.shown = false) →
      w.enter .empty (names ++ up) = .empty

theorem plain_of_not_respectGitignore (hg : w.settings.respectGitignore = false)
    (names : List RawText) (node : Node) : w.Plain names node :=
  fun _ _ _ _ => enter_eq_self hg _ _

theorem Plain.enter_eq (h : w.Plain names (.directory entries)) :
    w.enter .empty names = .empty := by
  have hr := h [] entries rfl (by simp)
  rwa [List.append_nil] at hr

theorem Plain.child {name : RawText} {child : Node} (h : w.Plain names (.directory entries))
    (hc : entries.lookup name = some child)
    (hd : w.settings.ignoreDirs.contains name.shown = false) : w.Plain (names ++ [name]) child := by
  intro up es hup hds
  have hr := h (name :: up) es (by rw [Node.at?_directory, hc]; exact hup)
    (List.forall_mem_cons.mpr ⟨hd, hds⟩)
  rwa [List.append_assoc]

/-- Without ignore rules every name that the settings do not leave out has its entry. -/
theorem mem_below_of_plain (hw : w.Plain names node) (hn : node.Proper)
    (h : w.Lists names node e) : e ∈ w.below .empty names node := by
  obtain ⟨up, es, p, hup, hp, rfl, hl, hd, hopens⟩ := h
  induction up generalizing names node with
  | nil =>
    rw [Node.at?_nil] at hup
    cases hup
    have ho := hopens [] (List.prefix_refl [])
    rw [List.append_nil] at hl ho ⊢
    refine mem_below_directory.mpr ⟨ho, p, hp, ⟨?_, hl⟩, Or.inl rfl⟩
    rw [hw.enter_eq, ignores_empty]
  | cons name up ih =>
    obtain ⟨entries, rfl⟩ := Node.eq_directory_of_at? hup
    rw [Node.at?_directory] at hup
    cases hc : entries.lookup name with
    | none => rw [hc] at hup; cases hup
    | some child =>
      rw [hc] at hup
      obtain ⟨es', rfl⟩ := Node.eq_directory_of_at? hup
      have hmem := Node.mem_of_lookup hc
      have ho := hopens [] List.nil_prefix
      have hbelow : ∀ way, way <+: up → w.opens (names ++ [name] ++ way) = true := by
        intro way hway
        have hr := hopens (name :: way) ((List.prefix_cons_inj name).mpr hway)
        rwa [List.append_assoc]
      have ha : names ++ name :: up = names ++ [name] ++ up := by simp
      rw [ha] at hl ⊢
      rw [List.forall_mem_cons] at hd
      rw [List.append_nil] at ho
      refine mem_below_directory.mpr ⟨ho, (name, .directory es'), hmem, ⟨?_, hd.1⟩, Or.inr ?_⟩
      · rw [hw.enter_eq, ignores_empty]
      · rw [hw.enter_eq]
        exact ih (hw.child hc hd.1) (hn.child hmem) hup hl hd.2 hbelow

theorem mem_below_iff_of_plain (hw : w.Plain names node) (hn : node.Proper) :
    e ∈ w.below .empty names node ↔ w.Lists names node e :=
  ⟨lists_of_mem_below hn, mem_below_of_plain hw hn⟩

theorem mem_below_empty_iff (hg : w.settings.respectGitignore = false) (hn : node.Proper) :
    e ∈ w.below .empty names node ↔ w.Lists names node e :=
  mem_below_iff_of_plain (plain_of_not_respectGitignore hg names node) hn

/-! ## Places of entries -/

theorem find_eq (w : Walk) (names parts : List RawText) :
    w.find names parts =
      if Volume.pathLimit < (w.pathOf (names ++ parts)).size then .error .nameTooLong
      else w.volume.targetOf
        (w.volume.follow w.base.links (w.base.place ++ names) parts) := by
  rw [find]
  rfl

theorem entryFor_target (hv : w.volume.Proper) {cwd : RawText}
    (hb : w.volume.find cwd w.root = .ok w.base)
    (hn : w.base.node.at? names = some (.directory entries)) (p : RawText × Node) :
    (w.entryFor names p).target = w.volume.resolve cwd w.root (names ++ [p.1]) := by
  rw [Volume.resolve_append hv hb hn]
  exact find_eq w names [p.1]

theorem opens_iff (hv : w.volume.Proper) {cwd : RawText}
    (hb : w.volume.find cwd w.root = .ok w.base)
    (hn : w.base.node.at? names = some (.directory entries)) :
    w.opens names = true ↔ w.volume.Opens cwd w.root names := by
  rw [Volume.opens_iff hv hb hn, opens, Bool.and_eq_true, decide_eq_true_iff,
    Option.isNone_iff_eq_none]
  rfl

/-! ## Directories in full order -/

theorem below_eq_nil (h : node.isDirectory = true → w.opens names = false) :
    w.below layers names node = [] := by
  cases node with
  | directory entries => rw [below_directory, h rfl, if_neg Bool.false_ne_true]
  | file content => rw [below]
  | link target => rw [below]
  | device => rw [below]

theorem branch?_empty (hl : w.leavesOut p.1 (w.entryFor names p).kind = false) :
    w.branch? .empty names p = some ⟨p.1, .ofTarget (w.entryFor names p).target,
      w.entryFor names p :: w.below .empty (w.entryFor names p).names p.2⟩ :=
  branch?_eq_some.mpr ⟨⟨ignores_empty _ _, hl⟩, rfl⟩

theorem below_of_pairwise (hg : w.settings.respectGitignore = false) (ho : w.opens names = true)
    (hl : ∀ p ∈ entries, w.leavesOut p.1 (w.entryFor names p).kind = false)
    (h : entries.Pairwise fun p q => (EntryKind.ofTarget (w.entryFor names p).target).Precedes p.1
      (.ofTarget (w.entryFor names q).target) q.1) :
    w.below .empty names (.directory entries) =
      entries.flatMap fun p => w.entryFor names p :: w.below .empty (names ++ [p.1]) p.2 := by
  have hb := List.filterMap_congr fun p hp => branch?_empty (hl p hp)
  rw [below_directory, if_pos ho, sorted, enter_eq_self hg, hb, List.filterMap_eq_map',
    List.mergeSort_of_pairwise, List.flatMap_map]
  · rfl
  · refine List.pairwise_map.mpr (h.imp fun hpq => ?_)
    exact Branch.before_iff.mpr (hpq.imp_right (And.imp_right List.le_of_lt))

theorem entries_of_pairwise {env : Environment} (hw : w.base.node = .directory entries)
    (hg : w.settings.respectGitignore = false) (ho : w.opens [] = true)
    (hl : ∀ p ∈ entries, w.leavesOut p.1 (w.entryFor [] p).kind = false)
    (h : entries.Pairwise fun p q => (EntryKind.ofTarget (w.entryFor [] p).target).Precedes p.1
      (.ofTarget (w.entryFor [] q).target) q.1) :
    w.entries env =
      entries.flatMap fun p => w.entryFor [] p :: w.below .empty [p.1] p.2 := by
  rw [Walk.entries, hw, hg, if_neg Bool.false_ne_true]
  exact below_of_pairwise hg ho hl h

end CodeOutline.Walk
