import Mathlib.Data.List.Basic
import CodeOutline.Report.Basic

/-! # Listings

A listing shows a tree by depths. The path of a line follows from the nearest line before it that is
one step higher. Where every item is followed first by the items below it and then by the items
beside it, in order, nothing is lost: the paths are found again as they are shown, none is there
twice, and there is only one such listing of the same items.
-/

namespace CodeOutline

theorem map_filterMap_sublist {α β γ : Type} {choose : α → Option β} {name : β → γ}
    {nameOf : α → γ} {as : List α} (h : ∀ a ∈ as, ∀ b, choose a = some b → name b = nameOf a) :
    ((as.filterMap choose).map name).Sublist (as.map nameOf) := by
  induction as with
  | nil => exact List.Sublist.refl _
  | cons a as ih =>
    have ih := ih fun x hx => h x (List.mem_cons_of_mem a hx)
    rw [List.filterMap_cons]
    cases hb : choose a with
    | none => exact ih.cons (nameOf a)
    | some b =>
      rw [List.map_cons, List.map_cons, h a List.mem_cons_self b hb]
      exact ih.cons_cons (nameOf a)

/-- A line of the listing with its path instead of its depth. -/
structure Line where
  path : List String
  kind : EntryKind
  deriving DecidableEq, Repr

namespace Line

def entry (l : Line) : TreeEntry :=
  ⟨l.path.length, l.path.getLast?.getD "", l.kind⟩

/-- The path of the nearest line before that is one step higher than `depth`. -/
def placeOf (before : List Line) (depth : Nat) : List String :=
  match before.find? (fun l => l.path.length + 1 = depth) with
  | some l => l.path
  | none => []

/-- The lines of a listing after the lines `before`, the nearest one first. -/
def locateFrom (before : List Line) : List TreeEntry → List Line
  | [] => []
  | e :: es =>
    let l := ⟨placeOf before e.depth ++ [e.name], e.kind⟩
    l :: locateFrom (l :: before) es

/-- The lines of a listing, with the paths that follow from the depths. -/
def locate (es : List TreeEntry) : List Line :=
  locateFrom [] es

/-- The nearest of the lines before that is higher than a line is the directory it stands in. -/
def Within (before : List Line) (l : Line) : Prop :=
  ∃ far d near, before = far ++ d :: near ∧ d.kind = .directory ∧
    (∃ name, l.path = d.path ++ [name]) ∧ ∀ m ∈ near, l.path.length ≤ m.path.length

variable {before ls : List Line} {l : Line} {depth : Nat}

theorem placeOf_cons_self (l : Line) (before : List Line) :
    placeOf (l :: before) (l.path.length + 1) = l.path := by
  rw [placeOf, List.find?_cons_of_pos (by simp)]

theorem placeOf_append (h : ∀ l ∈ ls, depth ≤ l.path.length) (before : List Line) :
    placeOf (ls ++ before) depth = placeOf before depth := by
  have hn : ls.find? (fun l => l.path.length + 1 = depth) = none := by
    rw [List.find?_eq_none]
    intro l hl hd
    have hle := h l hl
    rw [decide_eq_true_iff] at hd
    omega
  rw [placeOf, List.find?_append, hn, Option.none_or, placeOf]

end Line

theorem EntryKind.eq_of_iff {k k' : EntryKind} (h : k = .directory ↔ k' = .directory) : k = k' := by
  cases k <;> cases k' <;> simp_all

/-- What a line of the listing stands for, with the names as they are. -/
@[ext]
structure Item where
  path : List RawText
  kind : EntryKind
  /-- What the path leads to. -/
  leads : EntryKind

/-- Of two names in a directory, one that leads to no directory is listed first, and else the one
whose bytes are smaller. -/
def EntryKind.Precedes (k : EntryKind) (name : RawText) (k' : EntryKind) (name' : RawText) : Prop :=
  (k = .file ∧ k' = .directory) ∨ (k = k' ∧ name.bytes < name'.bytes)

instance (k k' : EntryKind) (name name' : RawText) : Decidable (k.Precedes name k' name') :=
  inferInstanceAs (Decidable (_ ∨ _))

namespace Item

def line (i : Item) : Line :=
  ⟨i.path.map RawText.shown, i.kind⟩

/-- The line of the listing. -/
def entry (i : Item) : TreeEntry :=
  i.line.entry

def name (i : Item) : RawText :=
  i.path.getLast?.getD ""

def Precedes (a b : Item) : Prop :=
  a.leads.Precedes a.name b.leads b.name

/-- The nearest of the items before that is higher than an item is the directory it stands in. -/
def Within (before : List Item) (i : Item) : Prop :=
  ∃ far d near, before = far ++ d :: near ∧ d.kind = .directory ∧
    (∃ name, i.path = d.path ++ [name]) ∧ ∀ m ∈ near, i.path.length ≤ m.path.length

variable {before : List Item} {i : Item}

theorem Within.append_left (h : Within before i) (is : List Item) : Within (is ++ before) i := by
  obtain ⟨far, d, near, rfl, hd⟩ := h
  exact ⟨is ++ far, d, near, by rw [List.append_assoc], hd⟩

theorem Within.line (h : Within before i) : Line.Within (before.map Item.line) i.line := by
  obtain ⟨far, d, near, rfl, hk, ⟨name, hp⟩, hn⟩ := h
  refine ⟨far.map Item.line, d.line, near.map Item.line, by simp, hk, ⟨name.shown, ?_⟩, ?_⟩
  · simp [Item.line, hp]
  · simpa [Item.line] using hn

theorem name_concat (place : List RawText) (name : RawText) (kind leads : EntryKind) :
    Item.name ⟨place ++ [name], kind, leads⟩ = name := by
  rw [Item.name, List.getLast?_concat]
  rfl

theorem entry_concat (place : List RawText) (name : RawText) (kind leads : EntryKind) :
    entry ⟨place ++ [name], kind, leads⟩ = ⟨place.length + 1, name.shown, kind⟩ := by
  simp [entry, line, Line.entry]

end Item

/-- A listing of what is below a place. -/
inductive Forest : List RawText → List Item → Prop
  | nil (place : List RawText) : Forest place []
  /-- An item, the items below it, and the other items. -/
  | cons {place : List RawText} {name : RawText} {kind leads : EntryKind}
    {below others : List Item} :
    Forest (place ++ [name]) below → Forest place others → (below ≠ [] → kind = .directory) →
      (∀ i ∈ others, ∀ other, i.path = place ++ [other] →
        other ≠ name ∧ leads.Precedes name i.leads i.name) →
      Forest place (⟨place ++ [name], kind, leads⟩ :: (below ++ others))

namespace Forest

variable {place : List RawText} {name : RawText} {kind leads : EntryKind} {i : Item}
  {is ms below others : List Item}

theorem under (h : Forest place is) :
    ∀ i ∈ is, ∃ name rest, i.path = place ++ name :: rest := by
  induction h with
  | nil place => simp
  | @cons place name kind leads below others _ _ _ _ ihb iho =>
    intro i hl
    rcases List.mem_cons.mp hl with rfl | hl
    · exact ⟨name, [], rfl⟩
    rcases List.mem_append.mp hl with hl | hl
    · obtain ⟨next, rest, hp⟩ := ihb i hl
      exact ⟨name, next :: rest, by rw [hp, List.append_assoc]; rfl⟩
    · exact iho i hl

theorem root (h : Forest place is) : ∀ i ∈ is, ∀ name rest, i.path = place ++ name :: rest →
    ∃ r ∈ is, r.path = place ++ [name] := by
  induction h with
  | nil place => simp
  | @cons place name kind leads below others hb ho _ _ ihb iho =>
    intro i hl next rest hp
    rcases List.mem_cons.mp hl with rfl | hl
    · obtain ⟨rfl, _⟩ := List.cons.inj (List.append_cancel_left hp)
      exact ⟨_, List.mem_cons_self, rfl⟩
    rcases List.mem_append.mp hl with hl | hl
    · obtain ⟨next', rest', hp'⟩ := hb.under i hl
      rw [hp, List.append_assoc] at hp'
      obtain ⟨rfl, _⟩ := List.cons.inj (List.append_cancel_left hp')
      exact ⟨_, List.mem_cons_self, rfl⟩
    · obtain ⟨r, hr, hrp⟩ := iho i hl next rest hp
      exact ⟨r, List.mem_cons_of_mem _ (List.mem_append_right _ hr), hrp⟩

theorem other_names (ho : Forest place others)
    (hd : ∀ i ∈ others, ∀ other, i.path = place ++ [other] → other ≠ name) :
    ∀ i ∈ others, ∀ rest, i.path ≠ place ++ name :: rest := by
  intro i hl rest hp
  obtain ⟨r, hr, hrp⟩ := ho.root i hl name rest hp
  exact hd r hr name hrp rfl

theorem nodup (h : Forest place is) : (is.map (·.path)).Nodup := by
  induction h with
  | nil place => exact List.nodup_nil
  | @cons place name kind leads below others hb ho _ hd ihb iho =>
    have hn := ho.other_names fun i hl other hp => (hd i hl other hp).1
    rw [List.map_cons, List.nodup_cons, List.map_append, List.nodup_append]
    refine ⟨?_, ihb, iho, ?_⟩
    · intro hm
      rcases List.mem_append.mp hm with hm | hm
      · obtain ⟨i, hl, hp⟩ := List.mem_map.mp hm
        obtain ⟨next, rest, hp'⟩ := hb.under i hl
        rw [hp'] at hp
        simpa using congrArg List.length hp
      · obtain ⟨i, hl, hp⟩ := List.mem_map.mp hm
        exact hn i hl [] hp
    · intro p hp q hq
      obtain ⟨i, hl, rfl⟩ := List.mem_map.mp hp
      obtain ⟨m, hm, rfl⟩ := List.mem_map.mp hq
      obtain ⟨next, rest, hp'⟩ := hb.under i hl
      intro he
      refine hn m hm (next :: rest) ?_
      rw [← he, hp', List.append_assoc]
      rfl

theorem locateFrom_append (h : Forest place is) (before : List Line)
    (hp : Line.placeOf before (place.length + 1) = place.map RawText.shown)
    (more : List TreeEntry) :
    Line.locateFrom before (is.map Item.entry ++ more) =
      is.map Item.line ++ Line.locateFrom ((is.map Item.line).reverse ++ before) more := by
  induction h generalizing before more with
  | nil place => rfl
  | @cons place name kind leads below others hb _ _ _ ihb iho =>
    have hline : Item.line ⟨place ++ [name], kind, leads⟩ =
        ⟨place.map RawText.shown ++ [name.shown], kind⟩ := by
      simp [Item.line]
    have hhead : Line.placeOf (⟨place.map RawText.shown ++ [name.shown], kind⟩ :: before)
        ((place ++ [name]).length + 1) = (place ++ [name]).map RawText.shown := by
      have hself := Line.placeOf_cons_self ⟨place.map RawText.shown ++ [name.shown], kind⟩ before
      simpa using hself
    -- The lines below are all lower than the other lines.
    have hskip : Line.placeOf ((below.map Item.line).reverse ++
        ⟨place.map RawText.shown ++ [name.shown], kind⟩ :: before) (place.length + 1) =
          place.map RawText.shown := by
      rw [← List.singleton_append, ← List.append_assoc, Line.placeOf_append ?_, hp]
      intro l hl
      rcases List.mem_append.mp hl with hl | hl
      · obtain ⟨i, hi, rfl⟩ := List.mem_map.mp (List.mem_reverse.mp hl)
        obtain ⟨next, rest, hi⟩ := hb.under i hi
        simp only [Item.line, hi, List.length_map, List.length_append, List.length_cons]
        omega
      · obtain rfl := List.mem_singleton.mp hl
        simp
    rw [List.map_cons, List.cons_append, Line.locateFrom, Item.entry_concat]
    simp only [hp]
    rw [List.map_append, List.append_assoc, ihb _ hhead, iho _ hskip, List.map_cons, hline]
    simp

theorem locate_eq (h : Forest [] is) :
    Line.locate (is.map Item.entry) = is.map Item.line := by
  have hl := h.locateFrom_append [] rfl []
  rwa [List.append_nil, Line.locateFrom, List.append_nil] at hl

example : (Line.locate [⟨1, "a", .directory⟩, ⟨2, "b", .file⟩, ⟨1, "c", .file⟩]).map (·.path) =
    [["a"], ["a", "b"], ["c"]] := by
  decide

/-- Every item stands at the place or within a directory that is listed before. -/
theorem nested (h : Forest place is) : ∀ before i after, is = before ++ i :: after →
    (∃ name, i.path = place ++ [name]) ∨ Item.Within before i := by
  induction h with
  | nil place =>
    intro before i after he
    simp at he
  | @cons place name kind leads below others hb ho hk _ ihb iho =>
    intro before i after he
    cases before with
    | nil =>
      obtain ⟨rfl, _⟩ := List.cons.inj he
      exact Or.inl ⟨name, rfl⟩
    | cons r before =>
      obtain ⟨rfl, hrest⟩ := List.cons.inj he
      rcases List.append_eq_append_iff.mp hrest with ⟨mid, rfl, ho'⟩ | ⟨mid, hb', he'⟩
      · rcases iho mid i after ho' with hl | hl
        · exact Or.inl hl
        · exact Or.inr (hl.append_left (_ :: below))
      · cases mid with
        | nil =>
          rcases iho [] i after he'.symm with hl | ⟨far, d, near, hnil, _⟩
          · exact Or.inl hl
          · simp at hnil
        | cons m mid =>
          obtain ⟨rfl, rfl⟩ := List.cons.inj he'
          apply Or.inr
          rcases ihb before i mid hb' with ⟨next, hl⟩ | hl
          · refine ⟨[], _, before, rfl, hk ?_, ⟨next, hl⟩, ?_⟩
            · rw [hb']
              simp
            · intro m hm
              obtain ⟨next', rest, hm⟩ := hb.under m (by rw [hb']; exact List.mem_append_left _ hm)
              simp only [hl, hm, List.length_append, List.length_cons, List.length_nil]
              omega
          · exact hl.append_left [_]

theorem mem_others (hb : Forest (place ++ [name]) below) (hl : i ∈ below ++ others)
    {other : RawText} (hp : i.path = place ++ [other]) : i ∈ others := by
  rcases List.mem_append.mp hl with hl | hl
  · obtain ⟨next, rest, hp'⟩ := hb.under i hl
    rw [hp, List.append_assoc] at hp'
    simp at hp'
  · exact hl

/-- The lines below the first one are those whose paths go on from its path. -/
theorem mem_below_iff (kind leads : EntryKind) (hb : Forest (place ++ [name]) below)
    (ho : Forest place others)
    (hd : ∀ i ∈ others, ∀ other, i.path = place ++ [other] → other ≠ name) :
    i ∈ below ↔ i ∈ (⟨place ++ [name], kind, leads⟩ :: (below ++ others) : List Item) ∧
      ∃ next rest, i.path = place ++ name :: next :: rest := by
  constructor
  · intro hl
    obtain ⟨next, rest, hp⟩ := hb.under i hl
    exact ⟨List.mem_cons_of_mem _ (List.mem_append_left _ hl), next, rest, by simp [hp]⟩
  · rintro ⟨hl, next, rest, hp⟩
    rcases List.mem_cons.mp hl with rfl | hl
    · simp at hp
    rcases List.mem_append.mp hl with hl | hl
    · exact hl
    · exact absurd hp (ho.other_names hd i hl (next :: rest))

theorem mem_others_iff (kind leads : EntryKind) (hb : Forest (place ++ [name]) below)
    (ho : Forest place others)
    (hd : ∀ i ∈ others, ∀ other, i.path = place ++ [other] → other ≠ name) :
    i ∈ others ↔ i ∈ (⟨place ++ [name], kind, leads⟩ :: (below ++ others) : List Item) ∧
      ∀ rest, i.path ≠ place ++ name :: rest := by
  constructor
  · intro hl
    exact ⟨List.mem_cons_of_mem _ (List.mem_append_right _ hl), ho.other_names hd i hl⟩
  · rintro ⟨hl, hn⟩
    rcases List.mem_cons.mp hl with rfl | hl
    · exact absurd rfl (hn [])
    rcases List.mem_append.mp hl with hl | hl
    · obtain ⟨next, rest, hp⟩ := hb.under i hl
      exact absurd (by simp [hp]) (hn (next :: rest))
    · exact hl

end Forest

theorem EntryKind.Precedes.asymm {k k' : EntryKind} {name name' : RawText}
    (h : k.Precedes name k' name') : ¬ k'.Precedes name' k name := by
  rintro (⟨hb, ha⟩ | ⟨hk, hn⟩)
  · rcases h with ⟨ha', _⟩ | ⟨hk, _⟩
    · rw [ha] at ha'
      cases ha'
    · rw [ha, hb] at hk
      cases hk
  · rcases h with ⟨ha, hb⟩ | ⟨_, hn'⟩
    · rw [ha, hb] at hk
      cases hk
    · exact List.lt_asymm hn hn'

namespace Forest

variable {place : List RawText} {is ms : List Item}

/-- There is only one listing of the same lines. -/
theorem ext (h : Forest place is) (h' : Forest place ms) (hm : ∀ i, i ∈ is ↔ i ∈ ms) :
    is = ms := by
  induction h generalizing ms with
  | nil place =>
    refine (List.eq_nil_iff_forall_not_mem.mpr fun i hl => ?_).symm
    exact List.not_mem_nil ((hm i).mpr hl)
  | @cons place name kind leads below others hb ho _ hd ihb iho =>
    cases h' with
    | nil => exact absurd ((hm _).mp List.mem_cons_self) List.not_mem_nil
    | @cons _ name' kind' leads' below' others' hb' ho' _ hd' =>
      -- Otherwise either first line would come before the other one.
      have hhead : (⟨place ++ [name], kind, leads⟩ : Item) = ⟨place ++ [name'], kind', leads'⟩ := by
        rcases List.mem_cons.mp ((hm _).mp List.mem_cons_self) with he | he
        · exact he
        rcases List.mem_cons.mp ((hm _).mpr List.mem_cons_self) with hf | hf
        · exact hf.symm
        have hlt := (hd' _ (mem_others hb' he rfl) name rfl).2
        have hgt := (hd _ (mem_others hb hf rfl) name' rfl).2
        rw [Item.name_concat] at hlt hgt
        exact absurd hgt hlt.asymm
      obtain ⟨hname, rfl, rfl⟩ := Item.mk.inj hhead
      obtain rfl := List.singleton_inj.mp (List.append_cancel_left hname)
      have hn := fun i hl other hp => (hd i hl other hp).1
      have hn' := fun i hl other hp => (hd' i hl other hp).1
      have hbelow : below = below' := ihb hb' fun i => by
        rw [mem_below_iff kind leads hb ho hn, mem_below_iff kind leads hb' ho' hn', hm i]
      have hothers : others = others' := iho ho' fun i => by
        rw [mem_others_iff kind leads hb ho hn, mem_others_iff kind leads hb' ho' hn',
          hm i]
      rw [hbelow, hothers]

end Forest

end CodeOutline
