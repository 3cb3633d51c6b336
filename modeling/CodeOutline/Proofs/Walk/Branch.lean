import CodeOutline.Proofs.Report.Listing
import CodeOutline.Proofs.Volume.Resolve
import CodeOutline.Scan

/-! # Branches

The names of a directory that a walk keeps, in the order of the listing. Every name of a proper
directory is kept at most once, and of two kept names one comes before the other.
-/

namespace CodeOutline

namespace Walk

variable {w : Walk} {layers : Ignore.Layers} {names : List RawText} {node : Node}
  {entries : List (RawText × Node)} {p : RawText × Node} {a b : Branch}

/-- The entry for a name in a directory. -/
def entryFor (w : Walk) (names : List RawText) (p : RawText × Node) : Entry :=
  let target := w.find names [p.1]
  ⟨names ++ [p.1], kindOf p.2 target, target⟩

/-- The branch for a name in a directory, if it is listed. -/
def branch? (w : Walk) (layers : Ignore.Layers) (names : List RawText) (p : RawText × Node) :
    Option Branch :=
  let e := w.entryFor names p
  if layers.ignores (w.pathOf e.names) p.2.isDirectory || w.leavesOut p.1 e.kind then none
  else some ⟨p.1, .ofTarget e.target, e :: w.below layers e.names p.2⟩

/-- The branches of a directory in the order of the listing. -/
def sorted (w : Walk) (layers : Ignore.Layers) (names : List RawText)
    (entries : List (RawText × Node)) : List Branch :=
  (entries.filterMap (w.branch? (w.enter layers names) names)).mergeSort Branch.before

theorem branches_eq (w : Walk) (layers : Ignore.Layers) (names : List RawText)
    (entries : List (RawText × Node)) :
    w.branches layers names entries = entries.filterMap (w.branch? layers names) := by
  induction entries with
  | nil => rw [branches, List.filterMap_nil]
  | cons p entries ih =>
    obtain ⟨name, node⟩ := p
    rw [branches, List.filterMap_cons, ih]
    unfold branch? entryFor
    dsimp only
    split <;> rfl

theorem below_directory (w : Walk) (layers : Ignore.Layers) (names : List RawText)
    (entries : List (RawText × Node)) :
    w.below layers names (.directory entries) =
      if w.opens names then (w.sorted layers names entries).flatMap (·.entries) else [] := by
  rw [below, branches_eq, sorted]

theorem mem_sorted : b ∈ w.sorted layers names entries ↔
    ∃ p ∈ entries, w.branch? (w.enter layers names) names p = some b := by
  rw [sorted, List.mem_mergeSort, List.mem_filterMap]

theorem branch?_eq_some : w.branch? layers names p = some b ↔
    (layers.ignores (w.pathOf (w.entryFor names p).names) p.2.isDirectory = false ∧
      w.leavesOut p.1 (w.entryFor names p).kind = false) ∧
      b = ⟨p.1, .ofTarget (w.entryFor names p).target,
        w.entryFor names p :: w.below layers (w.entryFor names p).names p.2⟩ := by
  rw [← Bool.or_eq_false_iff, branch?]
  split
  · rename_i h
    simp [h]
  · rename_i h
    rw [Bool.not_eq_true] at h
    simp [h, eq_comm]

/-! ## Order -/

theorem Branch.before_iff : a.before b = true ↔
    (a.leads = .file ∧ b.leads = .directory) ∨
      (a.leads = b.leads ∧ a.name.bytes ≤ b.name.bytes) := by
  rw [Branch.before]
  cases a.leads <;> cases b.leads <;> simp

theorem Branch.before_trans (a b c : Branch) (hab : a.before b = true)
    (hbc : b.before c = true) : a.before c = true := by
  rw [Branch.before_iff] at hab hbc ⊢
  rcases hab with ⟨ha, hb⟩ | ⟨hk, hn⟩
  · rcases hbc with ⟨hb', _⟩ | ⟨hk', _⟩
    · rw [hb] at hb'
      cases hb'
    · exact Or.inl ⟨ha, hk' ▸ hb⟩
  · rcases hbc with ⟨hb, hc⟩ | ⟨hk', hn'⟩
    · exact Or.inl ⟨hk.trans hb, hc⟩
    · exact Or.inr ⟨hk.trans hk', List.le_trans hn hn'⟩

theorem Branch.before_total (a b : Branch) : (a.before b || b.before a) = true := by
  rw [Bool.or_eq_true, Branch.before_iff, Branch.before_iff]
  rcases List.le_total a.name.bytes b.name.bytes with hn | hn <;> cases a.leads <;>
    cases b.leads <;> simp [hn]

theorem sorted_pairwise (w : Walk) (layers : Ignore.Layers) (names : List RawText)
    (entries : List (RawText × Node)) :
    (w.sorted layers names entries).Pairwise fun a b => a.before b = true := by
  rw [sorted]
  exact List.pairwise_mergeSort Branch.before_trans Branch.before_total _

theorem sorted_nodup (h : (entries.map (·.1)).Nodup) :
    ((w.sorted layers names entries).map (·.name)).Nodup := by
  rw [sorted, ((List.mergeSort_perm _ _).map _).nodup_iff]
  exact h.sublist (map_filterMap_sublist fun p _ b hb => by rw [(branch?_eq_some.mp hb).2])

/-- Of two branches, the first stands strictly before the second. -/
theorem sorted_precedes (h : (entries.map (·.1)).Nodup) :
    (w.sorted layers names entries).Pairwise fun a b =>
      a.leads.Precedes a.name b.leads b.name := by
  have hn : (w.sorted layers names entries).Pairwise fun a b => a.name ≠ b.name :=
    List.pairwise_map.mp (sorted_nodup h)
  refine ((w.sorted_pairwise layers names entries).and hn).imp fun {a b} ⟨hab, hne⟩ => ?_
  rcases Branch.before_iff.mp hab with hk | ⟨hk, hle⟩
  · exact Or.inl hk
  · refine Or.inr ⟨hk, Decidable.byContradiction fun hlt => hne ?_⟩
    exact RawText.ext_bytes (List.le_antisymm hle (List.not_lt.mp hlt))

end Walk

end CodeOutline
