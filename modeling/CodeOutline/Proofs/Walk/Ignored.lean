import CodeOutline.Proofs.Walk.Forest

/-! # Ignored entries

Ignore rules only take entries out of a walk. An entry stays exactly if no rule takes out a name on
the way down to it, whatever the files of rules say, so with an entry all that is below it goes too.
-/

namespace CodeOutline

namespace Forest

variable {place : List RawText} {is : List Item} {keep : Item → Bool}

/-- A listing stays one when with every item taken out all those below it are taken out. -/
theorem filter (h : Forest place is)
    (hclosed : ∀ d ∈ is, ∀ i ∈ is, d.path <+: i.path → keep i = true → keep d = true) :
    Forest place (is.filter keep) := by
  induction h with
  | nil place => exact Forest.nil place
  | @cons place name kind leads below others hb ho hk hd ihb iho =>
    have hbelow : ∀ i ∈ below,
        i ∈ (⟨place ++ [name], kind, leads⟩ :: (below ++ others) : List Item) :=
      fun i hi => List.mem_cons_of_mem _ (List.mem_append_left _ hi)
    have hothers : ∀ i ∈ others,
        i ∈ (⟨place ++ [name], kind, leads⟩ :: (below ++ others) : List Item) :=
      fun i hi => List.mem_cons_of_mem _ (List.mem_append_right _ hi)
    have hfb := ihb fun d hd' i hi => hclosed d (hbelow d hd') i (hbelow i hi)
    have hfo := iho fun d hd' i hi => hclosed d (hothers d hd') i (hothers i hi)
    rw [List.filter_cons, List.filter_append]
    split
    · refine Forest.cons hfb hfo ?_ fun i hi => hd i (List.mem_filter.mp hi).1
      intro hne
      apply hk
      rintro rfl
      exact hne rfl
    · rename_i hn
      -- The items below the first one go with it.
      have hnone : below.filter keep = [] := by
        rw [List.filter_eq_nil_iff]
        intro i hi hi'
        obtain ⟨next, rest, hp⟩ := hb.under i hi
        exact hn (hclosed _ List.mem_cons_self i (hbelow i hi) ⟨next :: rest, hp.symm⟩ hi')
      rw [hnone, List.nil_append]
      exact hfo

end Forest

namespace Walk

variable {w : Walk} {layers : Ignore.Layers} {names up rest : List RawText} {name : RawText}
  {node : Node} {e : Entry} {entries : List (RawText × Node)}

/-- The walk that honours ignore files, or the one that does not. -/
def honouring (w : Walk) (honoured : Bool) : Walk :=
  { w with settings := { w.settings with respectGitignore := honoured } }

/-- No ignore rule takes out a name of a way that leads down from a place. -/
def admits (w : Walk) : Ignore.Layers → List RawText → Node → List RawText → Bool
  | layers, names, .directory entries, name :: rest =>
    match entries.lookup name with
    | some child =>
      !(w.enter layers names).ignores (w.pathOf (names ++ [name])) child.isDirectory &&
        w.admits (w.enter layers names) (names ++ [name]) child rest
    | none => false
  | _, _, _, _ => true

theorem admits_nil (w : Walk) (layers : Ignore.Layers) (names : List RawText) (node : Node) :
    w.admits layers names node [] = true := by
  cases node <;> rfl

theorem admits_cons (hn : Node.Proper (.directory entries)) {child : Node}
    (hc : (name, child) ∈ entries) :
    w.admits layers names (.directory entries) (name :: rest) =
      (!(w.enter layers names).ignores (w.pathOf (names ++ [name])) child.isDirectory &&
        w.admits (w.enter layers names) (names ++ [name]) child rest) := by
  rw [admits, hn.lookup_iff.mpr hc]

theorem admits_of_append (h : w.admits layers names node (up ++ rest) = true) :
    w.admits layers names node up = true := by
  induction up generalizing layers names node with
  | nil => exact admits_nil w layers names node
  | cons name up ih =>
    cases node with
    | directory entries =>
      rw [List.cons_append, admits] at h
      rw [admits]
      cases hc : entries.lookup name with
      | none => rw [hc] at h; cases h
      | some child =>
        rw [hc, Bool.and_eq_true] at h
        rw [Bool.and_eq_true]
        exact ⟨h.1, ih h.2⟩
    | file content => rfl
    | link target => rfl
    | device => rfl

theorem entryFor_honouring (w : Walk) (honoured : Bool) :
    (w.honouring honoured).entryFor = w.entryFor := rfl

theorem leavesOut_honouring (w : Walk) (honoured : Bool) :
    (w.honouring honoured).leavesOut = w.leavesOut := by
  funext name kind
  cases kind <;> rfl

theorem lists_honouring (w : Walk) (honoured : Bool) :
    (w.honouring honoured).Lists = w.Lists := by
  unfold Lists
  rw [entryFor_honouring, leavesOut_honouring]
  rfl

theorem names_of_mem_below (hn : node.Proper) (h : e ∈ w.below layers names node) :
    ∃ name rest, e.names = names ++ name :: rest :=
  (forest_below hn layers names).under e.item (List.mem_map_of_mem h)

/-- The entries that stay are those whose ways are admitted. -/
theorem mem_below_iff_admits (hn : node.Proper) :
    e ∈ w.below layers names node ↔ e ∈ (w.honouring false).below .empty names node ∧
      ∃ rest, e.names = names ++ rest ∧ w.admits layers names node rest = true := by
  induction node using Node.induct generalizing layers names with
  | directory entries ih =>
    rw [mem_below_directory, mem_below_directory, enter_eq_self (w := w.honouring false) rfl,
      entryFor_honouring, leavesOut_honouring]
    constructor
    · rintro ⟨ho, p, hp, ⟨hi, hl⟩, he⟩
      rcases he with rfl | he
      · refine ⟨⟨ho, p, hp, ⟨rfl, hl⟩, Or.inl rfl⟩, [p.1], rfl, ?_⟩
        rw [admits_cons hn hp, admits_nil, Bool.and_true, Bool.not_eq_true']
        exact hi
      · obtain ⟨hoff, rest, hr, ha⟩ := (ih p hp (hn.child hp)).mp he
        refine ⟨⟨ho, p, hp, ⟨rfl, hl⟩, Or.inr hoff⟩, p.1 :: rest, ?_, ?_⟩
        · rw [hr]
          exact List.append_assoc names [p.1] rest
        · rw [admits_cons hn hp, Bool.and_eq_true, Bool.not_eq_true']
          exact ⟨hi, ha⟩
    · rintro ⟨⟨ho, p, hp, ⟨_, hl⟩, he⟩, rest, hr, ha⟩
      rcases he with rfl | he
      · obtain rfl : [p.1] = rest := List.append_cancel_left hr
        rw [admits_cons hn hp, Bool.and_eq_true, Bool.not_eq_true'] at ha
        exact ⟨ho, p, hp, ⟨ha.1, hl⟩, Or.inl rfl⟩
      · -- The way starts with the name that the entry is below.
        obtain ⟨next, up, hup⟩ := names_of_mem_below (hn.child hp) he
        have hup' : e.names = names ++ p.1 :: next :: up :=
          hup.trans (List.append_assoc names [p.1] (next :: up))
        obtain rfl : p.1 :: next :: up = rest := List.append_cancel_left (hup'.symm.trans hr)
        rw [admits_cons hn hp, Bool.and_eq_true, Bool.not_eq_true'] at ha
        exact ⟨ho, p, hp, ⟨ha.1, hl⟩, Or.inr ((ih p hp (hn.child hp)).mpr ⟨he, _, hup, ha.2⟩)⟩
  | file content => simp [below]
  | link target => simp [below]
  | device => simp [below]

end Walk

end CodeOutline
