import CodeOutline.Proofs.Volume.Shape

/-! # Orders of directories

Two trees can differ only in the orders of their directories. Then the same stands at every place of
both, so they have one shape.
-/

namespace CodeOutline

namespace Node

/-- Two trees are the same up to the orders of their directories. -/
inductive Reordered : Node → Node → Prop
  | refl (n : Node) : Reordered n n
  | perm {entries others : List (RawText × Node)} : entries.Perm others →
    Reordered (.directory entries) (.directory others)
  | within {n m : Node} (before : List (RawText × Node)) (name : RawText)
    (after : List (RawText × Node)) : Reordered n m →
      Reordered (.directory (before ++ (name, n) :: after))
        (.directory (before ++ (name, m) :: after))
  | trans {n m k : Node} : Reordered n m → Reordered m k → Reordered n k

variable {n m : Node}

theorem Reordered.proper (h : n.Reordered m) (hn : n.Proper) : m.Proper := by
  induction h with
  | refl => exact hn
  | perm hp =>
    refine Proper.directory _ ((hp.map _).nodup_iff.mp hn.nodup) ?_ ?_
    · exact fun e he => hn.properName (hp.mem_iff.mpr he)
    · exact fun e he => hn.child (hp.mem_iff.mpr he)
  | @within n m before name after _ ih =>
    have hmem : (name, n) ∈ before ++ (name, n) :: after := by simp
    have hother : ∀ e ∈ before ++ (name, m) :: after,
        e = (name, m) ∨ e ∈ before ++ (name, n) :: after := by
      intro e he
      simp only [List.mem_append, List.mem_cons] at he ⊢
      tauto
    refine Proper.directory _ ?_ ?_ ?_
    · have hnames := hn.nodup
      rw [List.map_append, List.map_cons] at hnames ⊢
      exact hnames
    · intro e he
      rcases hother e he with rfl | he
      · exact hn.properName hmem
      · exact hn.properName he
    · intro e he
      rcases hother e he with rfl | he
      · exact ih (hn.child hmem)
      · exact hn.child he
  | trans _ _ ih ih' => exact ih' (ih hn)

/-- The order of a directory is nothing that a place depends on. -/
theorem Reordered.agree (h : n.Reordered m) (hn : n.Proper) : n.Agree m := by
  induction h with
  | refl n => exact Agree.refl n
  | @perm entries others hp =>
    have hm := (Reordered.perm hp).proper hn
    refine agree_directory fun name names => ?_
    have hl : entries.lookup name = others.lookup name := by
      ext child
      rw [hn.lookup_iff, hm.lookup_iff, hp.mem_iff]
    rw [hl]
    exact rel_alike_refl _
  | @within n m before name after _ ih =>
    have ih := ih (hn.child (List.mem_append_right _ List.mem_cons_self))
    refine agree_directory fun x names => ?_
    rw [List.lookup_append, List.lookup_append]
    cases before.lookup x with
    | some child => exact rel_alike_refl _
    | none =>
      rw [Option.none_or, Option.none_or, List.lookup_cons, List.lookup_cons]
      cases x == name with
      | true => exact ih names
      | false => exact rel_alike_refl _
  | trans h _ ih ih' => exact (ih hn).trans (ih' (h.proper hn))

end Node

end CodeOutline
