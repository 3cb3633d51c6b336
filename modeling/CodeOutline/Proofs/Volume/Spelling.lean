import CodeOutline.Proofs.Volume.Put

/-! # Spellings of a path

One directory has many paths. A path below it leads to the same from all of them, except that the
path of the directory counts too: a path may only be so long, and lead through so many links.
-/

namespace CodeOutline.Volume

variable {v : Volume} {cwd root root' name part : RawText} {place pre post names : List RawText}
  {links links' : Nat} {f base base' : Found} {entries : List (RawText × Node)}

/-- With more links to follow, a path leads to the same, unless it led through too many. -/
theorem targetOf_follow_of_le (h : links ≤ links') (place parts : List RawText) :
    v.targetOf (v.follow links place parts) = .error .tooManyLinks ∨
      v.targetOf (v.follow links' place parts) = v.targetOf (v.follow links place parts) := by
  induction links generalizing links' place parts with
  | zero =>
    rw [follow, follow]
    cases v.advance place parts with
    | error e => exact Or.inr rfl
    | ok p =>
      cases p with
      | arrived place node => exact Or.inr rfl
      | vacant directory name => exact Or.inr rfl
      | link directory target rest => exact Or.inl rfl
  | succ links ih =>
    obtain ⟨more, rfl⟩ := Nat.exists_eq_add_of_le' h
    rw [follow, follow]
    cases v.advance place parts with
    | error e => exact Or.inr rfl
    | ok p =>
      cases p with
      | arrived place node => exact Or.inr rfl
      | vacant directory name => exact Or.inr rfl
      | link directory target rest => exact ih (Nat.le_add_left links more) _ _

/-- Two paths lead to one directory, and whatever is below it has its path lead through too many
links from both of them or from none, and be too long from both or from none. -/
structure SameDirectory (v : Volume) (cwd root root' : RawText) : Prop where
  found : ∃ base base', v.find cwd root = .ok base ∧ v.find cwd root' = .ok base' ∧
    base.place = base'.place ∧ base.node.isDirectory = true
  links : ∀ names, (v.standing? cwd root names).isSome →
    (v.resolve cwd root names = .error .tooManyLinks ↔
      v.resolve cwd root' names = .error .tooManyLinks)
  length : ∀ names, (v.standing? cwd root names).isSome →
    (v.resolve cwd root names = .error .nameTooLong ↔
      v.resolve cwd root' names = .error .nameTooLong)

theorem node_eq_of_place (h : v.find cwd root = .ok base) (h' : v.find cwd root' = .ok base')
    (hp : base.place = base'.place) : base.node = base'.node := by
  have hn := at?_of_follow (follow_of_find h)
  have hn' := at?_of_follow (follow_of_find h')
  rw [hp, hn', Option.some_inj] at hn
  exact hn.symm

theorem isSome_standing?_of_prefix {up : List RawText} (h : up <+: names)
    (hs : (v.standing? cwd root names).isSome) : (v.standing? cwd root up).isSome := by
  obtain ⟨rest, rfl⟩ := h
  rw [standing?] at hs ⊢
  cases hf : v.find cwd root with
  | error e =>
    rw [hf] at hs
    cases hs
  | ok base =>
    rw [hf] at hs
    dsimp only at hs ⊢
    rw [Node.at?_append] at hs
    cases hup : base.node.at? up with
    | none =>
      rw [hup] at hs
      cases hs
    | some m => rfl

namespace SameDirectory

theorem standing?_eq (h : v.SameDirectory cwd root root') (names : List RawText) :
    v.standing? cwd root' names = v.standing? cwd root names := by
  obtain ⟨base, base', hf, hf', hp, _⟩ := h.found
  rw [standing?, standing?, hf, hf']
  dsimp only
  rw [node_eq_of_place hf hf' hp]

theorem symm (h : v.SameDirectory cwd root root') : v.SameDirectory cwd root' root := by
  have hs := h.standing?_eq
  obtain ⟨⟨base, base', hf, hf', hp, hd⟩, hlinks, hlength⟩ := h
  refine ⟨⟨base', base, hf', hf, hp.symm, by rwa [← node_eq_of_place hf hf' hp]⟩, ?_, ?_⟩
  · intro names hsome
    rw [hs] at hsome
    exact (hlinks names hsome).symm
  · intro names hsome
    rw [hs] at hsome
    exact (hlength names hsome).symm

theorem resolve_eq (h : v.SameDirectory cwd root root')
    (hs : (v.standing? cwd root names).isSome) :
    v.resolve cwd root' names = v.resolve cwd root names := by
  obtain ⟨base, base', hf, hf', hp, hd⟩ := h.found
  have hd' : base'.node.isDirectory = true := by rwa [← node_eq_of_place hf hf' hp]
  have hlinks := h.links names hs
  have hlength := h.length names hs
  by_cases hlong : pathLimit < (names.foldl Path.join root).size
  · have hr : v.resolve cwd root names = .error .nameTooLong := if_pos hlong
    rw [hr, hlength.mp hr]
  by_cases hlong' : pathLimit < (names.foldl Path.join root').size
  · have hr' : v.resolve cwd root' names = .error .nameTooLong := if_pos hlong'
    rw [hr', hlength.mpr hr']
  have hr := Volume.resolve_eq hf hd names
  have hr' := Volume.resolve_eq hf' hd' names
  rw [if_neg hlong] at hr
  rw [if_neg hlong', ← hp] at hr'
  rcases Nat.le_total base.links base'.links with hl | hl
  · rcases targetOf_follow_of_le (v := v) hl base.place names with he | he
    · rw [← hr] at he
      rw [he, hlinks.mp he]
    · rw [hr', hr, he]
  · rcases targetOf_follow_of_le (v := v) hl base.place names with he | he
    · rw [← hr'] at he
      rw [he, hlinks.mpr he]
    · rw [hr', hr, he]

theorem leadsToDirectory_iff (h : v.SameDirectory cwd root root')
    (hs : (v.standing? cwd root names).isSome) :
    v.LeadsToDirectory cwd root' names ↔ v.LeadsToDirectory cwd root names := by
  rw [LeadsToDirectory, LeadsToDirectory, h.resolve_eq hs]

theorem opens_iff (h : v.SameDirectory cwd root root')
    (hs : (v.standing? cwd root names).isSome) :
    v.Opens cwd root' names ↔ v.Opens cwd root names := by
  rw [Opens, Opens, h.resolve_eq hs]

theorem countsAsDirectory_iff (h : v.SameDirectory cwd root root')
    (hs : (v.standing? cwd root names).isSome) :
    v.CountsAsDirectory cwd root' names ↔ v.CountsAsDirectory cwd root names := by
  rw [CountsAsDirectory, CountsAsDirectory, h.standing?_eq, h.leadsToDirectory_iff hs]

theorem isDirectory (h : v.SameDirectory cwd root root') : v.isDirectory cwd root' = true := by
  obtain ⟨base, base', hf, hf', hp, hd⟩ := h.found
  rw [Volume.isDirectory, hf']
  dsimp only
  rwa [← node_eq_of_place hf hf' hp]

theorem of_links_eq (hf : v.find cwd root = .ok base) (hf' : v.find cwd root' = .ok base')
    (hp : base.place = base'.place) (hl : base.links = base'.links)
    (hd : base.node.isDirectory = true)
    (hs : ∀ names, (v.standing? cwd root names).isSome →
      (names.foldl Path.join root).size ≤ pathLimit ∧
        (names.foldl Path.join root').size ≤ pathLimit) : v.SameDirectory cwd root root' := by
  have hd' : base'.node.isDirectory = true := by rwa [← node_eq_of_place hf hf' hp]
  have hr : ∀ names, (v.standing? cwd root names).isSome →
      v.resolve cwd root names = v.resolve cwd root' names := by
    intro names hsome
    obtain ⟨hshort, hshort'⟩ := hs names hsome
    rw [Volume.resolve_eq hf hd, Volume.resolve_eq hf' hd', hp, hl,
      if_neg (Nat.not_lt.mpr hshort), if_neg (Nat.not_lt.mpr hshort')]
  refine ⟨⟨base, base', hf, hf', hp, hd⟩, fun names hsome => ?_, fun names hsome => ?_⟩
  · rw [hr names hsome]
  · rw [hr names hsome]

end SameDirectory

/-! ## Detours -/

/-- The parts of two paths from the top differ in detours only: parts that stay in a directory, or
enter a directory and leave it again. -/
inductive Detours (v : Volume) : List RawText → List RawText → Prop
  | refl (parts : List RawText) : Detours v parts parts
  | symm {parts others : List RawText} : Detours v parts others → Detours v others parts
  | trans {parts others rest : List RawText} : Detours v parts others → Detours v others rest →
    Detours v parts rest
  | stay (pre post : List RawText) (part : RawText) (f : Found) :
    v.follow linkLimit [] pre = .ok (.found f) → f.node.isDirectory = true →
      Path.isIdle part = true → Detours v (pre ++ part :: post) (pre ++ post)
  | back (pre post : List RawText) (name : RawText) (f : Found) (entries : List (RawText × Node)) :
    v.follow linkLimit [] pre = .ok (.found f) → ProperName name →
      v.top.at? (f.place ++ [name]) = some (.directory entries) →
        Detours v (pre ++ name :: (".." : RawText) :: post) (pre ++ post)

theorem follow_back (hn : ProperName name)
    (h : v.top.at? (place ++ [name]) = some (.directory entries)) (links : Nat)
    (parts : List RawText) :
    v.follow links place (name :: (".." : RawText) :: parts) = v.follow links place parts := by
  have hup : Path.enter (place ++ [name]) ".." = place := by
    rw [Path.enter, if_neg (by decide), if_pos rfl, List.dropLast_concat]
  have ha : v.advance place (name :: (".." : RawText) :: parts) = v.advance place parts := by
    rw [advance_proper hn, h]
    dsimp only
    rw [advance, if_pos (by decide), hup]
  rw [follow, follow, ha]

/-- Detours make no difference. -/
theorem Detours.follow_eq {parts others : List RawText} (h : v.Detours parts others) :
    v.follow linkLimit [] parts = v.follow linkLimit [] others := by
  induction h with
  | refl parts => rfl
  | symm _ ih => exact ih.symm
  | trans _ _ ih ih' => exact ih.trans ih'
  | stay pre post part f hf hd hi =>
    rw [follow_append hf hd, follow_append hf hd, follow_idle hi]
  | back pre post name f entries hf hn hs =>
    have hd : f.node.isDirectory = true := by
      obtain ⟨es, hup, _⟩ := Node.exists_directory_of_at?_concat hs
      rw [at?_of_follow hf, Option.some_inj] at hup
      rw [hup]
      rfl
    rw [follow_append hf hd, follow_append hf hd, follow_back hn hs]

theorem SameDirectory.of_detours (hf : v.find cwd root = .ok base)
    (hd : base.node.isDirectory = true) (ht : Takes root')
    (h : v.Detours (Path.parts (Path.join cwd root)) (Path.parts (Path.join cwd root')))
    (hs : ∀ names, (v.standing? cwd root names).isSome →
      (names.foldl Path.join root).size ≤ pathLimit ∧
        (names.foldl Path.join root').size ≤ pathLimit) :
    v.SameDirectory cwd root root' := by
  have hf' : v.find cwd root' = .ok base := by
    apply ht.find_eq_ok
    rw [← h.follow_eq, follow_of_find hf]
  exact SameDirectory.of_links_eq hf hf' rfl rfl hd hs

/-! ## Slashes -/

/-- A path of slashes only, which leads to the top. -/
def slashes (n : Nat) : RawText :=
  ⟨List.replicate n Path.slash⟩

variable {n : Nat}

theorem parts_slashes (n : Nat) : Path.parts (slashes n) = List.replicate (n + 1) ("" : RawText) := by
  induction n with
  | zero => rfl
  | succ n ih =>
    have ha := Path.parts_append [] (List.replicate n Path.slash)
    rw [List.nil_append, ← List.replicate_succ] at ha
    rw [slashes, ha, List.replicate_succ, ← ih]
    rfl

theorem follow_slashes (n links : Nat) (place parts : List RawText) :
    v.follow links place (List.replicate n ("" : RawText) ++ parts) =
      v.follow links place parts := by
  induction n with
  | zero => rfl
  | succ n ih => rw [List.replicate_succ, List.cons_append, follow_slash, ih]

theorem isAbsolute_slashes (h : 0 < n) : Path.isAbsolute (slashes n) = true := by
  obtain ⟨m, rfl⟩ := Nat.exists_eq_add_of_lt h
  exact Path.isAbsolute_cons _

theorem takes_slashes (h : 0 < n) (hn : n ≤ pathLimit) : Takes (slashes n) where
  noNul hm := by
    have hz := (List.mem_replicate.mp hm).2
    cases hz
  ne_empty := Path.ne_empty_of_isAbsolute (isAbsolute_slashes h)
  short := by rwa [slashes, RawText.size, List.length_replicate]

theorem find_slashes (h : 0 < n) (hn : n ≤ pathLimit) (v : Volume) (cwd : RawText) :
    v.find cwd (slashes n) = .ok ⟨[], v.top, linkLimit⟩ := by
  apply (takes_slashes h hn).find_eq_ok
  have hf := follow_slashes (v := v) (n + 1) linkLimit [] []
  rw [List.append_nil] at hf
  rw [Path.join_of_isAbsolute cwd (isAbsolute_slashes h), parts_slashes, hf, follow, advance,
    Node.at?_nil]

end CodeOutline.Volume
