import CodeOutline.Proofs.Walk.Entries

/-! # Listings of walks

A walk through a proper tree lists it in full order: with every directory what is below it, and
beside each other first what leads to no directory and then the directories. It lists no more than there are names in
the tree.
-/

namespace CodeOutline

/-- What an entry stands for in a listing. -/
def Entry.item (e : Entry) : Item :=
  ⟨e.names, e.kind, .ofTarget e.target⟩

namespace Walk

variable {w : Walk} {layers : Ignore.Layers} {names : List RawText} {node : Node}
  {entries : List (RawText × Node)} {bs : List Branch} {b : Branch} {i : Item}

/-- The entries of a branch are the one for its name and those below. -/
def Branch.Grows (names : List RawText) (b : Branch) : Prop :=
  ∃ kind target below, b.entries = ⟨names ++ [b.name], kind, target⟩ :: below ∧
    b.leads = .ofTarget target ∧ Forest (names ++ [b.name]) (below.map Entry.item) ∧
      (below ≠ [] → kind = .directory)

/-- Only the first entry of a branch stands beside other branches. -/
theorem Branch.Grows.item_eq (hb : b.Grows names) (hi : i ∈ b.entries.map Entry.item)
    {name : RawText} (hp : i.path = names ++ [name]) :
    ∃ kind, i = ⟨names ++ [b.name], kind, b.leads⟩ := by
  obtain ⟨kind, target, below, he, hleads, hf, _⟩ := hb
  rw [he, List.map_cons] at hi
  rcases List.mem_cons.mp hi with rfl | hi
  · exact ⟨kind, by rw [hleads]; rfl⟩
  · obtain ⟨next, rest, hp'⟩ := hf.under i hi
    rw [hp, List.append_assoc] at hp'
    simp at hp'

theorem forest_branches (hb : ∀ b ∈ bs, b.Grows names)
    (hn : bs.Pairwise fun a b => a.name ≠ b.name)
    (ho : bs.Pairwise fun a b => a.leads.Precedes a.name b.leads b.name) :
    Forest names ((bs.flatMap (·.entries)).map Entry.item) := by
  induction bs with
  | nil => exact Forest.nil names
  | cons b bs ih =>
    obtain ⟨kind, target, below, he, hleads, hf, hk⟩ := hb b List.mem_cons_self
    have hbs : ∀ b ∈ bs, b.Grows names := fun c hc => hb c (List.mem_cons_of_mem b hc)
    rw [List.pairwise_cons] at hn ho
    rw [List.flatMap_cons, he, List.map_append, List.map_cons, List.cons_append]
    refine Forest.cons hf (ih hbs hn.2 ho.2) ?_ ?_
    · intro hne
      exact hk fun h => hne (by rw [h, List.map_nil])
    · intro i hi other hp
      rw [List.map_flatMap] at hi
      obtain ⟨c, hc, hi⟩ := List.mem_flatMap.mp hi
      obtain ⟨_, rfl⟩ := (hbs c hc).item_eq hi hp
      obtain rfl := List.singleton_inj.mp (List.append_cancel_left hp)
      rw [Item.name_concat, ← hleads]
      exact ⟨(hn.1 c hc).symm, ho.1 c hc⟩

theorem grows_of_branch? {p : RawText × Node} (hb : w.branch? layers names p = some b)
    (hf : Forest (names ++ [p.1])
      ((w.below layers (names ++ [p.1]) p.2).map Entry.item)) : b.Grows names := by
  obtain ⟨_, rfl⟩ := branch?_eq_some.mp hb
  refine ⟨_, _, _, rfl, rfl, hf, fun hne => ?_⟩
  obtain ⟨name, child⟩ := p
  cases child with
  | directory es => rfl
  | file content => exact absurd (by rw [below]) hne
  | link target => exact absurd (by rw [below]) hne
  | device => exact absurd (by rw [below]) hne

/-- What is below a place of a proper tree is listed in full order. -/
theorem forest_below (hn : node.Proper) (layers : Ignore.Layers) (names : List RawText) :
    Forest names ((w.below layers names node).map Entry.item) := by
  induction node using Node.induct generalizing layers names with
  | directory entries ih =>
    rw [below_directory]
    split
    swap
    · exact Forest.nil names
    refine forest_branches ?_ (List.pairwise_map.mp (sorted_nodup hn.nodup))
      (sorted_precedes hn.nodup)
    intro b hb
    obtain ⟨p, hp, hb⟩ := mem_sorted.mp hb
    exact grows_of_branch? hb (ih p hp (hn.child hp) _ _)
  | file content => rw [below]; exact Forest.nil names
  | link target => rw [below]; exact Forest.nil names
  | device => rw [below]; exact Forest.nil names

theorem grows_of_mem_sorted (hn : Node.Proper (.directory entries))
    (hb : b ∈ w.sorted layers names entries) : b.Grows names := by
  obtain ⟨p, hp, hb⟩ := mem_sorted.mp hb
  exact grows_of_branch? hb (forest_below (hn.child hp) _ _)

/-! ## Length -/

end Walk

end CodeOutline
