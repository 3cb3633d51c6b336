import CodeOutline.Proofs.Volume.Resolve

/-! # Trees of one shape

Two trees have one shape when they differ at most in the contents of files and in the orders of
directories. Then every path leads to the same place in both, whatever links there are on the way.
-/

namespace CodeOutline

namespace Node

/-- Two nodes are the same, or both are directories. -/
inductive Alike : Node → Node → Prop
  | refl (n : Node) : Alike n n
  | directory (entries others : List (RawText × Node)) :
    Alike (.directory entries) (.directory others)

/-- Two nodes are the same, or both are files, or both are directories. -/
inductive Akin : Node → Node → Prop
  | refl (n : Node) : Akin n n
  | file (content other : ByteArray) : Akin (.file content) (.file other)
  | directory (entries others : List (RawText × Node)) :
    Akin (.directory entries) (.directory others)

/-- What stands at any place of two trees is alike. -/
def Agree (n m : Node) : Prop :=
  ∀ names, Option.Rel Alike (n.at? names) (m.at? names)

/-- What stands at any place of two trees is akin. -/
def SameShape (n m : Node) : Prop :=
  ∀ names, Option.Rel Akin (n.at? names) (m.at? names)

variable {n m k : Node} {entries others : List (RawText × Node)} {o o' o'' : Option Node}

theorem Alike.trans (h : n.Alike m) (h' : m.Alike k) : n.Alike k := by
  cases h with
  | refl => exact h'
  | directory entries others =>
    cases h' with
    | refl => exact Alike.directory entries others
    | directory _ others' => exact Alike.directory entries others'

theorem Alike.akin (h : n.Alike m) : n.Akin m := by
  cases h with
  | refl => exact Akin.refl n
  | directory entries others => exact Akin.directory entries others

theorem Akin.symm (h : n.Akin m) : m.Akin n := by
  cases h with
  | refl => exact Akin.refl n
  | file content other => exact Akin.file other content
  | directory entries others => exact Akin.directory others entries

theorem Akin.isDirectory_eq (h : n.Akin m) : n.isDirectory = m.isDirectory := by
  cases h <;> rfl

theorem rel_alike_refl (o : Option Node) : Option.Rel Alike o o := by
  cases o with
  | none => exact Option.Rel.none
  | some n => exact Option.Rel.some (Alike.refl n)

theorem rel_akin_symm (h : Option.Rel Akin o o') : Option.Rel Akin o' o := by
  cases h with
  | none => exact Option.Rel.none
  | some h => exact Option.Rel.some h.symm

theorem rel_akin_of_alike (h : Option.Rel Alike o o') : Option.Rel Akin o o' := by
  cases h with
  | none => exact Option.Rel.none
  | some h => exact Option.Rel.some h.akin

theorem rel_alike_trans (h : Option.Rel Alike o o') (h' : Option.Rel Alike o' o'') :
    Option.Rel Alike o o'' := by
  cases h with
  | none => exact h'
  | some h =>
    cases h' with
    | some h' => exact Option.Rel.some (h.trans h')

theorem Agree.refl (n : Node) : n.Agree n := fun names => rel_alike_refl (n.at? names)

theorem Agree.trans (h : n.Agree m) (h' : m.Agree k) : n.Agree k :=
  fun names => rel_alike_trans (h names) (h' names)

theorem SameShape.symm (h : n.SameShape m) : m.SameShape n := fun names => rel_akin_symm (h names)

theorem agree_directory (h : ∀ name names,
    Option.Rel Alike ((entries.lookup name).bind (at? names))
      ((others.lookup name).bind (at? names))) :
    (directory entries).Agree (directory others) := by
  intro names
  cases names with
  | nil => exact Option.Rel.some (Alike.directory entries others)
  | cons name names =>
    rw [at?_directory, at?_directory]
    exact h name names

end Node

namespace Volume

open Node (Akin)

/-- The same progress, to nodes that are akin. -/
inductive Progress.Same : Except FileError Progress → Except FileError Progress → Prop
  | error (e : FileError) : Same (.error e) (.error e)
  | arrived (place : List RawText) {n m : Node} : n.Akin m →
    Same (.ok (.arrived place n)) (.ok (.arrived place m))
  | vacant (directory : List RawText) (name : RawText) :
    Same (.ok (.vacant directory name)) (.ok (.vacant directory name))
  | link (directory : List RawText) (target : RawText) (rest : List RawText) :
    Same (.ok (.link directory target rest)) (.ok (.link directory target rest))

/-- The same end of a path, at nodes that are akin. -/
inductive Destination.Same : Except FileError Destination → Except FileError Destination → Prop
  | error (e : FileError) : Same (.error e) (.error e)
  | found (place : List RawText) {n m : Node} (links : Nat) : n.Akin m →
    Same (.ok (.found ⟨place, n, links⟩)) (.ok (.found ⟨place, m, links⟩))
  | vacant (directory : List RawText) (name : RawText) :
    Same (.ok (.vacant directory name)) (.ok (.vacant directory name))

variable {v v' : Volume} {cwd root : RawText} {names : List RawText} {base : Found}

theorem Progress.Same.refl (r : Except FileError Progress) : Same r r := by
  rcases r with e | p
  · exact Same.error e
  · cases p with
    | arrived place n => exact Same.arrived place (Akin.refl n)
    | vacant directory name => exact Same.vacant directory name
    | link directory target rest => exact Same.link directory target rest

theorem advance_same (h : v.top.SameShape v'.top) (place parts : List RawText) :
    Progress.Same (v.advance place parts) (v'.advance place parts) := by
  induction parts generalizing place with
  | nil =>
    have hp := h place
    rw [advance, advance]
    generalize v.top.at? place = o at hp ⊢
    generalize v'.top.at? place = o' at hp ⊢
    cases hp with
    | none => exact Progress.Same.refl _
    | some ha => exact Progress.Same.arrived place ha
  | cons part rest ih =>
    have hp := h (place ++ [part])
    rw [advance, advance]
    split
    · exact ih _
    split
    · exact Progress.Same.refl _
    generalize v.top.at? (place ++ [part]) = o at hp ⊢
    generalize v'.top.at? (place ++ [part]) = o' at hp ⊢
    cases hp with
    | none => exact Progress.Same.refl _
    | @some n m ha =>
      cases ha with
      | file content other =>
        dsimp only
        split
        · exact Progress.Same.arrived _ (Akin.file content other)
        · exact Progress.Same.refl _
      | directory => exact ih _
      | refl =>
        cases n with
        | directory => exact ih _
        | link => exact Progress.Same.refl _
        | file => exact Progress.Same.refl _
        | device => exact Progress.Same.refl _

/-- Every path has the same end. -/
theorem follow_same (h : v.top.SameShape v'.top) (links : Nat) (place parts : List RawText) :
    Destination.Same (v.follow links place parts) (v'.follow links place parts) := by
  induction links generalizing place parts with
  | zero =>
    have ha := advance_same h place parts
    rw [follow, follow]
    generalize v.advance place parts = a at ha ⊢
    generalize v'.advance place parts = a' at ha ⊢
    cases ha with
    | error e => exact Destination.Same.error e
    | arrived place ha => exact Destination.Same.found place 0 ha
    | vacant directory name => exact Destination.Same.vacant directory name
    | link => exact Destination.Same.error _
  | succ links ih =>
    have ha := advance_same h place parts
    rw [follow, follow]
    generalize v.advance place parts = a at ha ⊢
    generalize v'.advance place parts = a' at ha ⊢
    cases ha with
    | error e => exact Destination.Same.error e
    | arrived place ha => exact Destination.Same.found place (links + 1) ha
    | vacant directory name => exact Destination.Same.vacant directory name
    | link => exact ih _ _

theorem leadsToDirectory_of_sameShape (h : v.top.SameShape v'.top) (cwd root : RawText)
    (names : List RawText) :
    v.LeadsToDirectory cwd root names ↔ v'.LeadsToDirectory cwd root names := by
  have hs := follow_same h linkLimit [] (Path.parts (Path.join cwd root) ++ names)
  rw [LeadsToDirectory, LeadsToDirectory, resolve, resolve]
  split
  · simp
  generalize v.follow linkLimit [] (Path.parts (Path.join cwd root) ++ names) = d at hs ⊢
  generalize v'.follow linkLimit [] (Path.parts (Path.join cwd root) ++ names) = d' at hs ⊢
  cases hs with
  | error e => simp [targetOf]
  | found place links ha => cases ha <;> simp [targetOf, target]
  | vacant directory name => simp [targetOf]

theorem reach_same (h : v.top.SameShape v'.top) (cwd path : RawText) :
    Destination.Same (v.reach cwd path) (v'.reach cwd path) := by
  rw [reach, reach]
  split
  · exact Destination.Same.error _
  split
  · exact Destination.Same.error _
  split
  · exact Destination.Same.error _
  · exact follow_same h _ _ _

theorem isDirectory_of_sameShape (h : v.top.SameShape v'.top) (cwd path : RawText) :
    v.isDirectory cwd path = v'.isDirectory cwd path := by
  have hs := reach_same h cwd path
  rw [isDirectory, isDirectory, find, find]
  generalize v.reach cwd path = d at hs ⊢
  generalize v'.reach cwd path = d' at hs ⊢
  cases hs with
  | error e => rfl
  | found place links ha => exact ha.isDirectory_eq
  | vacant directory name => rfl

theorem exists_find_of_sameShape (h : v.top.SameShape v'.top) (hf : v.find cwd root = .ok base) :
    ∃ base', v'.find cwd root = .ok base' ∧ base'.place = base.place := by
  have hs := reach_same h cwd root
  rw [find] at hf ⊢
  generalize v.reach cwd root = d at hs hf
  generalize v'.reach cwd root = d' at hs ⊢
  cases hs with
  | error e => cases hf
  | found place links ha =>
    cases hf
    exact ⟨_, rfl, rfl⟩
  | vacant directory name => cases hf

theorem rel_standing? (h : v.top.SameShape v'.top) (cwd root : RawText) (names : List RawText) :
    Option.Rel Akin (v.standing? cwd root names) (v'.standing? cwd root names) := by
  rw [standing?, standing?]
  cases hf : v.find cwd root with
  | ok base =>
    obtain ⟨base', hf', hplace⟩ := exists_find_of_sameShape h hf
    have hp := h (base.place ++ names)
    rw [at?_base hf, ← hplace, at?_base hf'] at hp
    rw [hf']
    exact hp
  | error e =>
    cases hf' : v'.find cwd root with
    | error e' => exact Option.Rel.none
    | ok base' =>
      obtain ⟨base, hb, _⟩ := exists_find_of_sameShape h.symm hf'
      rw [hf] at hb
      cases hb

theorem isSome_standing?_of_sameShape (h : v.top.SameShape v'.top)
    (hs : (v.standing? cwd root names).isSome) : (v'.standing? cwd root names).isSome := by
  have hr := rel_standing? h cwd root names
  generalize v.standing? cwd root names = o at hs hr
  generalize v'.standing? cwd root names = o' at hr ⊢
  cases hr with
  | none => exact hs
  | some _ => rfl

theorem countsAsDirectory_of_sameShape (h : v.top.SameShape v'.top) (cwd root : RawText)
    (names : List RawText) :
    v.CountsAsDirectory cwd root names ↔ v'.CountsAsDirectory cwd root names := by
  have hr := rel_standing? h cwd root names
  rw [CountsAsDirectory, CountsAsDirectory, leadsToDirectory_of_sameShape h]
  generalize v.standing? cwd root names = o at hr ⊢
  generalize v'.standing? cwd root names = o' at hr ⊢
  cases hr with
  | none => rfl
  | some ha => cases ha <;> simp

theorem opens_of_sameShape (h : v.top.SameShape v'.top) (hr : v'.refusal = v.refusal)
    (cwd root : RawText) (names : List RawText) :
    v.Opens cwd root names ↔ v'.Opens cwd root names := by
  have hs := follow_same h linkLimit [] (Path.parts (Path.join cwd root) ++ names)
  rw [Opens, Opens, resolve, resolve]
  split
  · simp
  generalize v.follow linkLimit [] (Path.parts (Path.join cwd root) ++ names) = d at hs ⊢
  generalize v'.follow linkLimit [] (Path.parts (Path.join cwd root) ++ names) = d' at hs ⊢
  cases hs with
  | error e => simp [targetOf]
  | found place links ha => cases ha <;> simp [targetOf, target, hr]
  | vacant directory name => simp [targetOf]

end Volume

end CodeOutline
