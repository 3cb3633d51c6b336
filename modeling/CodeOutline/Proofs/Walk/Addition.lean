import CodeOutline.Proofs.Volume.Put
import CodeOutline.Proofs.Walk.Forest

/-! # A new file

In a tree without links a walk that honours no ignore files sees the tree and nothing else. So a new
file in the directory of the walk is one entry more, among what leads to no directory, and all other
entries stay as they are.
-/

namespace CodeOutline

namespace Node

variable {n m : Node} {name : RawText} {entries : List (RawText × Node)}

/-- No link stands anywhere in the tree. -/
def Unlinked (n : Node) : Prop :=
  ∀ names target, n.at? names ≠ some (.link target)

theorem Unlinked.ne_link (h : n.Unlinked) (target : RawText) : n ≠ .link target := by
  rintro rfl
  exact h [] target rfl

theorem Unlinked.child (h : (directory entries).Unlinked) (hc : entries.lookup name = some m) :
    m.Unlinked := by
  intro names target ht
  refine h (name :: names) target ?_
  rw [at?_directory, hc]
  exact ht

theorem unlinked_file (content : ByteArray) : (file content).Unlinked := by
  intro names target ht
  cases names <;> cases ht

theorem unlinked_directory (h : ∀ e ∈ entries, e.2.Unlinked) : (directory entries).Unlinked := by
  intro names target ht
  cases names with
  | nil => cases ht
  | cons name names =>
    rw [at?_directory] at ht
    obtain ⟨m, hm, ht⟩ := Option.bind_eq_some_iff.mp ht
    exact h _ (mem_of_lookup hm) names target ht

theorem notMem_names_of_lookup (h : entries.lookup name = none) : ∀ e ∈ entries, e.1 ≠ name := by
  rintro e he rfl
  rw [List.lookup_eq_none_iff] at h
  simpa using h e he

theorem Proper.insert (h : Proper (.directory entries)) (hn : ProperName name)
    (hv : entries.lookup name = none) (content : ByteArray) :
    Proper (.directory (setEntry name (.file content) entries)) := by
  have hp := setEntry_perm hv (Node.file content)
  refine Proper.directory _ ?_ ?_ ?_
  · rw [(hp.map _).nodup_iff, List.map_cons, List.nodup_cons]
    refine ⟨?_, h.nodup⟩
    rw [List.mem_map]
    rintro ⟨e, he, hname⟩
    exact notMem_names_of_lookup hv e he hname
  · intro e he
    rcases List.mem_cons.mp (hp.mem_iff.mp he) with rfl | he
    · exact hn
    · exact h.properName he
  · intro e he
    rcases List.mem_cons.mp (hp.mem_iff.mp he) with rfl | he
    · exact Proper.file content
    · exact h.child he

theorem at?_setEntry {up : List RawText} (hv : entries.lookup name = none) (hne : up ≠ [])
    (hm : at? up (.directory entries) = some m) (new : Node) :
    at? up (.directory (setEntry name new entries)) = some m := by
  obtain ⟨first, rest, rfl⟩ := List.exists_cons_of_ne_nil hne
  rw [at?_directory] at hm ⊢
  rw [lookup_setEntry, if_neg]
  · exact hm
  · rintro rfl
    rw [hv] at hm
    cases hm

end Node

namespace Walk

variable {w : Walk} {layers : Ignore.Layers} {names : List RawText} {name : RawText} {node : Node}
  {entries : List (RawText × Node)} {p : RawText × Node} {b : Branch} {e : Entry} {content : ByteArray}

/-! ## Trees without links -/

/-- The walk of another volume under the same settings. -/
def onto (w : Walk) (v : Volume) (base : Found) : Walk :=
  { w with volume := v, base := base }

theorem leavesOut_onto (w : Walk) (v : Volume) (base : Found) :
    (w.onto v base).leavesOut = w.leavesOut := by
  funext name kind
  cases kind <;> rfl

/-- All that stands below a place of a tree stands there in the volume of the walk. -/
def Holds (w : Walk) (names : List RawText) (node : Node) : Prop :=
  ∀ up m, up ≠ [] → node.at? up = some m →
    w.volume.top.at? (w.base.place ++ names ++ up) = some m

theorem Holds.child (h : w.Holds names (.directory entries)) (hn : Node.Proper (.directory entries))
    (hp : p ∈ entries) : w.Holds (names ++ [p.1]) p.2 := by
  intro up m hne hm
  have hr := h (p.1 :: up) m (List.cons_ne_nil _ _) (by
    rw [Node.at?_directory, hn.lookup_iff.mpr hp]
    exact hm)
  simpa using hr

theorem Holds.stands (h : w.Holds names (.directory entries))
    (hn : Node.Proper (.directory entries)) (hp : p ∈ entries) :
    w.volume.top.at? (w.base.place ++ names ++ [p.1]) = some p.2 := by
  apply h [p.1] p.2 (List.cons_ne_nil _ _)
  rw [Node.at?_directory, hn.lookup_iff.mpr hp]
  exact Node.at?_nil p.2

theorem find_of_holds (h : w.Holds names (.directory entries))
    (hn : Node.Proper (.directory entries)) (hp : p ∈ entries) (hl : ∀ target, p.2 ≠ .link target) :
    w.find names [p.1] =
      if Volume.pathLimit < (w.pathOf (names ++ [p.1])).size then .error .nameTooLong
      else .ok ⟨p.2, w.volume.refusal .read (w.base.place ++ names ++ [p.1])⟩ := by
  rw [find_eq, Volume.follow_name (hn.properName hp) (h.stands hn hp) hl]
  rfl

theorem leads_of_below (h : w.Holds names (.directory entries))
    (hn : Node.Proper (.directory entries)) (hp : p ∈ entries)
    (hb : w.below layers (names ++ [p.1]) p.2 ≠ []) :
    EntryKind.ofTarget (w.entryFor names p).target = .directory := by
  have hd : ∃ es, p.2 = .directory es := by
    cases hm : p.2 <;> rw [hm] at hb
    · exact absurd (by rw [below]) hb
    · exact ⟨_, rfl⟩
    · exact absurd (by rw [below]) hb
    · exact absurd (by rw [below]) hb
  obtain ⟨es, hes⟩ := hd
  rw [hes, below_directory] at hb
  have ho : w.opens (names ++ [p.1]) = true := by
    by_contra hne
    rw [if_neg hne] at hb
    exact hb rfl
  rw [opens, Bool.and_eq_true, decide_eq_true_iff] at ho
  have hf := find_of_holds h hn hp fun target ht => by
    rw [hes] at ht
    cases ht
  rw [if_neg (Nat.not_lt.mpr ho.1)] at hf
  rw [entryFor, hf, hes]
  rfl

/-- Without links the volume does not matter, as long as the same is refused. -/
theorem below_onto {v : Volume} {base : Found} (hg : w.settings.respectGitignore = false)
    (hplace : base.place = w.base.place) (hr : v.refusal = w.volume.refusal) (hn : node.Proper)
    (hu : node.Unlinked) (h : w.Holds names node) (h' : (w.onto v base).Holds names node)
    (layers : Ignore.Layers) :
    (w.onto v base).below layers names node = w.below layers names node := by
  induction node using Node.induct generalizing layers names with
  | directory entries ih =>
    have hb : ∀ p ∈ entries, (w.onto v base).branch? layers names p = w.branch? layers names p := by
      intro p hp
      have hc := hu.child (hn.lookup_iff.mpr hp)
      have hf : (w.onto v base).find names [p.1] = w.find names [p.1] := by
        rw [find_of_holds h hn hp hc.ne_link, find_of_holds h' hn hp hc.ne_link, onto, hplace, hr]
        rfl
      have he : (w.onto v base).entryFor names p = w.entryFor names p := by
        rw [entryFor, entryFor, hf]
      have hbelow := ih p hp (hn.child hp) hc (h.child hn hp) (h'.child hn hp) layers
      rw [branch?, branch?, he, leavesOut_onto]
      dsimp only [entryFor]
      rw [hbelow]
      rfl
    have ho : (w.onto v base).opens names = w.opens names := by
      rw [opens, opens, onto, hplace, hr]
      rfl
    rw [below_directory, below_directory, sorted, sorted, ho,
      enter_eq_self (w := w.onto v base) hg, enter_eq_self hg, List.filterMap_congr hb]
  | file content => rw [below, below]
  | link target => rw [below, below]
  | device => rw [below, below]

/-! ## A new name -/

theorem exists_sorted_insert (hn : Node.Proper (.directory entries)) (hname : ProperName name)
    (hv : entries.lookup name = none)
    (hb : w.branch? (w.enter layers names) names (name, .file content) = some b) :
    ∃ before after,
      w.sorted layers names (Node.setEntry name (.file content) entries) =
          before ++ b :: after ∧
        w.sorted layers names entries = before ++ after := by
  have hs : (w.sorted layers names (Node.setEntry name (.file content) entries)).Perm
      (b :: w.sorted layers names entries) := by
    have hp := (Node.setEntry_perm hv (Node.file content)).filterMap
      (w.branch? (w.enter layers names) names)
    rw [List.filterMap_cons_some hb] at hp
    exact ((List.mergeSort_perm _ _).trans hp).trans ((List.mergeSort_perm _ _).symm.cons b)
  obtain ⟨before, after, he⟩ := List.append_of_mem (hs.mem_iff.mpr List.mem_cons_self)
  rw [he] at hs
  refine ⟨before, after, he, ?_⟩
  have hrest : (before ++ after).Perm (w.sorted layers names entries) :=
    (List.perm_middle.symm.trans hs).cons_inv
  have hall : (before ++ b :: after).Pairwise fun a b =>
      a.leads.Precedes a.name b.leads b.name :=
    he ▸ sorted_precedes (hn.insert hname hv content).nodup
  have hsub : (before ++ after).Sublist (before ++ b :: after) :=
    (List.Sublist.refl before).append (List.sublist_cons_self b after)
  -- There is only one strict order of the same branches.
  exact (hrest.eq_of_pairwise (fun _ _ _ _ hab hba => absurd hba hab.asymm) (hall.sublist hsub)
    (sorted_precedes hn.nodup)).symm

theorem eq_singleton_of_leads (h : w.Holds names (.directory entries))
    (hn : Node.Proper (.directory entries)) (hb : b ∈ w.sorted layers names entries)
    (hl : b.leads = .file) (he : e ∈ b.entries) :
    ∃ kind, e.item = ⟨names ++ [b.name], kind, b.leads⟩ := by
  obtain ⟨p, hp, hb⟩ := mem_sorted.mp hb
  obtain ⟨_, rfl⟩ := branch?_eq_some.mp hb
  rcases List.mem_cons.mp he with rfl | he
  · exact ⟨_, rfl⟩
  · have hd := leads_of_below h hn hp (List.ne_nil_of_mem he)
    rw [hd] at hl
    cases hl

theorem Branch.Grows.item_of_length {a : Branch} (ha : a.Grows names)
    (he : e ∈ a.entries) (hl : e.names.length = names.length + 1) :
    ∃ kind, e.item = ⟨names ++ [a.name], kind, a.leads⟩ := by
  have hi : e.item ∈ a.entries.map Entry.item := List.mem_map_of_mem he
  obtain ⟨kind, target, below, heq, hleads, hf, _⟩ := ha
  rw [heq] at he
  rcases List.mem_cons.mp he with rfl | he
  · exact ⟨kind, by rw [hleads]; rfl⟩
  · obtain ⟨next, rest, hp⟩ := hf.under e.item (List.mem_map_of_mem he)
    have hlen := congrArg List.length hp
    simp only [Entry.item, List.length_append, List.length_cons, List.length_nil] at hlen
    omega

theorem ofTarget_of_insert (hn : Node.Proper (.directory entries)) (hname : ProperName name)
    (hv : entries.lookup name = none)
    (hh : w.Holds names (.directory (Node.setEntry name (.file content) entries))) :
    EntryKind.ofTarget (w.find names [name]) = .file := by
  have hmem : (name, .file content) ∈ Node.setEntry name (.file content) entries :=
    (Node.setEntry_perm hv _).mem_iff.mpr List.mem_cons_self
  rw [find_of_holds hh (hn.insert hname hv content) hmem nofun]
  split <;> rfl

/-- A new file of a directory is one entry more, among what leads to no directory. -/
theorem exists_below_insert (hn : Node.Proper (.directory entries)) (hname : ProperName name)
    (hv : entries.lookup name = none)
    (hh : w.Holds names (.directory (Node.setEntry name (.file content) entries)))
    (ho : w.opens names = true)
    (hi : (w.enter layers names).ignores (w.pathOf (names ++ [name])) false = false)
    (hl : w.leavesOut name .file = false) :
    ∃ before after,
      w.below layers names (.directory (Node.setEntry name (.file content) entries)) =
        before ++ ⟨names ++ [name], .file, w.find names [name]⟩ :: after ∧
      w.below layers names (.directory entries) = before ++ after ∧
      (∀ e ∈ before, e.names.length = names.length + 1 ∧
        e.item.Precedes ⟨names ++ [name], .file, .file⟩) ∧
      ∀ e ∈ after, e.names.length = names.length + 1 →
        Item.Precedes ⟨names ++ [name], .file, .file⟩ e.item := by
  have hproper := hn.insert hname hv content
  have hleads := ofTarget_of_insert hn hname hv hh
  have hb : w.branch? (w.enter layers names) names (name, .file content) =
      some ⟨name, .file, [⟨names ++ [name], .file, w.find names [name]⟩]⟩ := by
    refine branch?_eq_some.mpr ⟨⟨hi, hl⟩, ?_⟩
    rw [below, entryFor]
    dsimp only
    rw [hleads]
    rfl
  obtain ⟨before, after, hs, hs'⟩ := exists_sorted_insert hn hname hv hb
  have hmem : ∀ a ∈ before ++ ⟨name, .file, [⟨names ++ [name], .file, w.find names [name]⟩]⟩ ::
      after, a ∈ w.sorted layers names (Node.setEntry name (.file content) entries) :=
    fun a ha => hs ▸ ha
  have hall := hs ▸ sorted_precedes hproper.nodup
  rw [List.pairwise_append, List.pairwise_cons] at hall
  refine ⟨before.flatMap (·.entries), after.flatMap (·.entries), ?_, ?_, ?_, ?_⟩
  · rw [below_directory, if_pos ho, hs, List.flatMap_append, List.flatMap_cons]
    rfl
  · rw [below_directory, if_pos ho, hs', List.flatMap_append]
  · intro e he
    obtain ⟨a, ha, he⟩ := List.mem_flatMap.mp he
    have hp := hall.2.2 a ha _ List.mem_cons_self
    have hfile : a.leads = .file := by
      rcases hp with ⟨hf, _⟩ | ⟨hf, _⟩ <;> exact hf
    obtain ⟨kind, hitem⟩ :=
      eq_singleton_of_leads hh hproper (hmem a (List.mem_append_left _ ha)) hfile he
    have hnames : e.names = names ++ [a.name] := congrArg Item.path hitem
    rw [hitem, Item.Precedes, Item.name_concat, Item.name_concat]
    exact ⟨by simp [hnames], hp⟩
  · intro e he hlen
    obtain ⟨a, ha, he⟩ := List.mem_flatMap.mp he
    have hp := hall.2.1.1 a ha
    have hg := grows_of_mem_sorted hproper
      (hmem a (List.mem_append_right _ (List.mem_cons_of_mem _ ha)))
    obtain ⟨kind, hitem⟩ := hg.item_of_length he hlen
    rw [hitem, Item.Precedes, Item.name_concat, Item.name_concat]
    exact hp

end Walk

end CodeOutline
