import CodeOutline.Proofs.Volume.Content
import CodeOutline.Proofs.Volume.Put

/-! # Writing files

To write a file is to put it at the one place that its path leads to, before and afterwards. At all
other places the volume stays as it is. A write that fails has changed nothing, or else the start of
the content is in the file.
-/

namespace CodeOutline

namespace Node

variable {n new : Node} {name : RawText} {up place : List RawText} {entries : List (RawText × Node)}

theorem at?_cons_of_not_directory (h : ∀ es, n ≠ .directory es) (names : List RawText) :
    n.at? (name :: names) = none := by
  cases n with
  | directory es => exact absurd rfl (h es)
  | file content => rfl
  | link target => rfl
  | device => rfl

theorem rel_at?_setEntry (h : ∀ rest, place = name :: rest →
      Option.Rel Alike ((entries.lookup name).bind (at? rest)) (new.at? rest)) :
    Option.Rel Alike ((directory entries).at? place)
      ((directory (setEntry name new entries)).at? place) := by
  cases place with
  | nil => exact Option.Rel.some (Alike.directory _ _)
  | cons other rest =>
    rw [at?_directory, at?_directory, lookup_setEntry]
    by_cases ho : name = other
    · subst ho
      rw [if_pos rfl]
      exact h rest rfl
    · rw [if_neg ho]
      exact rel_alike_refl _

/-- A file that is put in a directory, but not in place of another directory, changes no other
place. -/
theorem rel_at?_put (h : n.at? up = some (.directory entries))
    (hd : ∀ es, entries.lookup name ≠ some (.directory es)) (content : ByteArray)
    (hne : place ≠ up ++ [name]) :
    Option.Rel Alike (n.at? place) ((n.put (up ++ [name]) (.file content)).at? place) := by
  induction up generalizing n place with
  | nil =>
    rw [at?_nil] at h
    cases h
    rw [List.nil_append, put, put_nil]
    apply rel_at?_setEntry
    rintro rest rfl
    cases rest with
    | nil => exact absurd rfl hne
    | cons next rest =>
      have hnone : (entries.lookup name).bind (at? (next :: rest)) = none := by
        cases hl : entries.lookup name with
        | none => rfl
        | some m => exact at?_cons_of_not_directory (fun es he => hd es (he ▸ hl)) rest
      rw [hnone]
      exact Option.Rel.none
  | cons directoryName up ih =>
    obtain ⟨es, rfl⟩ := eq_directory_of_at? h
    rw [at?_directory] at h
    obtain ⟨child, hc, hchild⟩ := Option.bind_eq_some_iff.mp h
    rw [List.cons_append, put, hc, Option.getD_some]
    apply rel_at?_setEntry
    rintro rest rfl
    rw [hc, Option.bind_some]
    apply ih hchild
    rintro rfl
    exact hne rfl

theorem at?_put_self (h : n.at? up = some (.directory entries)) (name : RawText) (new : Node) :
    (n.put (up ++ [name]) new).at? (up ++ [name]) = some new := by
  have hd := at?_put h [name] new
  rw [put, put_nil] at hd
  rw [at?_concat hd, lookup_setEntry, if_pos rfl]

end Node

namespace Volume

variable {v v' : Volume} {cwd path name target : RawText} {place parts rest directory : List RawText}
  {content old : ByteArray} {links : Nat} {p : Progress}

/-- A volume after a file is written at a place. -/
structure Rewritten (v : Volume) (place : List RawText) (content : ByteArray) (v' : Volume) :
    Prop where
  stands : v'.top.at? place = some (.file content)
  elsewhere : ∀ other, other ≠ place →
    Option.Rel Node.Alike (v.top.at? other) (v'.top.at? other)
  /-- The same is refused, and there is as much room. -/
  rest : v' = { v with top := v'.top }

/-- A directory stands at a place. -/
def HasDirectory (v : Volume) (place : List RawText) : Prop :=
  ∃ entries, v.top.at? place = some (.directory entries)

theorem hasDirectory_nil (h : v.top.isDirectory = true) : v.HasDirectory [] := by
  rw [HasDirectory, Node.at?_nil]
  cases hn : v.top with
  | directory entries => exact ⟨entries, rfl⟩
  | _ =>
    rw [hn] at h
    cases h

theorem HasDirectory.dropLast (h : v.HasDirectory place) : v.HasDirectory place.dropLast := by
  obtain ⟨entries, h⟩ := h
  obtain ⟨rest, hr⟩ := place.dropLast_prefix
  rw [← hr] at h
  exact Node.exists_directory_of_at?_append h

theorem HasDirectory.rewritten (h : v.HasDirectory place)
    (hd : ¬ v.HasDirectory (place ++ [name])) (content : ByteArray) :
    v.Rewritten (place ++ [name]) content (v.put (place ++ [name]) (.file content)) := by
  obtain ⟨entries, h⟩ := h
  refine ⟨Node.at?_put_self h name _, fun other hne => ?_, rfl⟩
  refine Node.rel_at?_put h (fun es he => hd ⟨es, ?_⟩) content hne
  rw [Node.at?_concat h, he]

theorem rewritten_of_file (h : v.top.at? place = some (.file old)) (content : ByteArray) :
    v.Rewritten place content (v.put place (.file content)) := by
  rcases List.eq_nil_or_concat place with rfl | ⟨up, name, rfl⟩
  · rw [Node.at?_nil, Option.some_inj] at h
    have htop : (v.put [] (.file content)).top = .file content := Node.put_nil _ _
    refine ⟨by rw [htop, Node.at?_nil], fun other hne => ?_, rfl⟩
    cases other with
    | nil => exact absurd rfl hne
    | cons name rest =>
      rw [h, htop]
      exact Option.Rel.none
  · rw [List.concat_eq_append] at h ⊢
    obtain ⟨entries, hup, hl⟩ := Node.exists_directory_of_at?_concat h
    apply HasDirectory.rewritten ⟨entries, hup⟩
    rintro ⟨es, he⟩
    rw [h] at he
    cases he

theorem Rewritten.sameBut (h : v.Rewritten place content v')
    (hf : v.top.at? place = some (.file old)) : v.SameBut [place] v' := by
  refine ⟨?_, ?_, by rw [h.rest]⟩
  · intro names
    by_cases hn : names = place
    · subst hn
      rw [hf, h.stands]
      exact Option.Rel.some (Node.Akin.file old content)
    · exact Node.rel_akin_of_alike (h.elsewhere names hn)
  · intro other ho
    exact h.elsewhere other fun he => ho (List.mem_singleton.mpr he)

/-! ## Where nothing stands -/

/-- The directory where a path comes to its last name, or to a link, is there, and nothing stands
under the last name. -/
def Progress.Within (v : Volume) : Progress → Prop
  | .arrived .. => True
  | .vacant directory name =>
    v.HasDirectory directory ∧ v.top.at? (directory ++ [name]) = none
  | .link directory _ _ => v.HasDirectory directory

theorem within_of_advance (hp : v.HasDirectory place) (h : v.advance place parts = .ok p) :
    p.Within v := by
  induction parts generalizing place with
  | nil =>
    rw [advance] at h
    split at h
    · cases h
      trivial
    · cases h
  | cons part rest ih =>
    rw [advance] at h
    split at h
    · rename_i hs
      refine ih ?_ h
      rw [Path.enter]
      split
      · exact hp
      split
      · exact hp.dropLast
      · tauto
    split at h
    · cases h
    split at h
    · rename_i hnone
      split at h
      · cases h
        exact ⟨hp, hnone⟩
      · cases h
    · cases h
      exact hp
    · rename_i entries hdir
      exact ih ⟨entries, hdir⟩ h
    · split at h
      · cases h
        trivial
      · cases h

theorem HasDirectory.start (ht : v.top.isDirectory = true) (h : v.HasDirectory directory)
    (target : RawText) :
    v.HasDirectory (if Path.isAbsolute target then [] else directory) := by
  split
  · exact hasDirectory_nil ht
  · exact h

theorem vacant_of_follow (ht : v.top.isDirectory = true) (hp : v.HasDirectory place)
    (h : v.follow links place parts = .ok (.vacant directory name)) :
    v.HasDirectory directory ∧ v.top.at? (directory ++ [name]) = none := by
  induction links generalizing place parts with
  | zero =>
    rw [follow] at h
    split at h
    · cases h
    · cases h
    · rename_i ha
      cases h
      exact within_of_advance hp ha
    · cases h
  | succ links ih =>
    rw [follow] at h
    split at h
    · cases h
    · cases h
    · rename_i ha
      cases h
      exact within_of_advance hp ha
    · rename_i ha
      have hw : v.HasDirectory _ := within_of_advance hp ha
      exact ih (hw.start ht _) h

namespace Rewritten

/-- The way to a new file is the way that led to its place before. -/
theorem advance_eq (h : v.Rewritten (directory ++ [name]) content v')
    (hn : v.top.at? (directory ++ [name]) = none) :
    (v.advance place parts = .ok (.vacant directory name) →
      v'.advance place parts = .ok (.arrived (directory ++ [name]) (.file content))) ∧
    ∀ from' target rest, v.advance place parts = .ok (.link from' target rest) →
      v'.advance place parts = .ok (.link from' target rest) := by
  induction parts generalizing place with
  | nil =>
    rw [advance]
    split <;> simp
  | cons part rest ih =>
    rw [advance, advance]
    split
    · exact ih
    split
    · simp
    by_cases he : place ++ [part] = directory ++ [name]
    · obtain ⟨rfl, rfl⟩ := List.append_singleton_inj.mp he
      rw [hn, h.stands]
      dsimp only
      split <;> simp
    · have ha := h.elsewhere _ he
      generalize v.top.at? (place ++ [part]) = o at ha ⊢
      generalize v'.top.at? (place ++ [part]) = o' at ha ⊢
      cases ha with
      | none =>
        dsimp only
        split
        · constructor
          · intro hv
            cases hv
            exact absurd rfl he
          · intro _ _ _ hl
            cases hl
        · simp
      | @some m m' ha =>
        cases ha with
        | directory => exact ih
        | refl =>
          cases m with
          | directory => exact ih
          | link target =>
            constructor
            · intro hv
              cases hv
            · intro _ _ _ hl
              exact hl
          | file =>
            dsimp only
            split <;> simp
          | device =>
            dsimp only
            split <;> simp

theorem follow_eq (h : v.Rewritten (directory ++ [name]) content v')
    (hn : v.top.at? (directory ++ [name]) = none)
    (hv : v.follow links place parts = .ok (.vacant directory name)) :
    ∃ links', v'.follow links place parts =
      .ok (.found ⟨directory ++ [name], .file content, links'⟩) := by
  induction links generalizing place parts with
  | zero =>
    rw [follow] at hv ⊢
    split at hv
    · cases hv
    · cases hv
    · rename_i ha
      cases hv
      rw [(h.advance_eq hn).1 ha]
      exact ⟨0, rfl⟩
    · cases hv
  | succ links ih =>
    rw [follow] at hv ⊢
    split at hv
    · cases hv
    · cases hv
    · rename_i ha
      cases hv
      rw [(h.advance_eq hn).1 ha]
      exact ⟨links + 1, rfl⟩
    · rename_i ha
      rw [(h.advance_eq hn).2 _ _ _ ha]
      exact ih hv

theorem find_eq (h : v.Rewritten place content v')
    (hf : v.find cwd path = .ok ⟨place, .file old, links⟩) :
    ∃ links', v'.find cwd path = .ok ⟨place, .file content, links'⟩ := by
  have hplace : v.top.at? place = some (.file old) := at?_of_follow (follow_of_find hf)
  obtain ⟨⟨place', node, links'⟩, hf', rfl⟩ :=
    exists_find_of_sameShape (h.sameBut hplace).shape hf
  have hnode : v'.top.at? place' = some node := at?_of_follow (follow_of_find hf')
  rw [h.stands, Option.some_inj] at hnode
  exact ⟨links', by rw [hf', hnode]⟩

end Rewritten

/-! ## What is written -/

/-- What becomes of a volume when a file is written. -/
inductive Written (v : Volume) (cwd path : RawText) (content : ByteArray) (v' : Volume) : Prop
  /-- A file that is there has other content. -/
  | replaced (place : List RawText) (old : ByteArray) (links links' : Nat) :
    v.find cwd path = .ok ⟨place, .file old, links⟩ → v.Rewritten place content v' →
      v'.find cwd path = .ok ⟨place, .file content, links'⟩ → Written v cwd path content v'
  /-- A file is there that was not. -/
  | created (place : List RawText) (links : Nat) :
    v.has cwd path = false → v.top.at? place = none → v.Rewritten place content v' →
      v'.find cwd path = .ok ⟨place, .file content, links⟩ → Written v cwd path content v'
  /-- A device keeps nothing. -/
  | swallowed (place : List RawText) (links : Nat) :
    v.find cwd path = .ok ⟨place, .device, links⟩ → v' = v → Written v cwd path content v'

/-- Where nothing was found, no file is changed. -/
theorem Written.keeps (h : v.Written cwd path content v') (hhas : v.has cwd path = false)
    (hp : v.top.at? place = some (.file old)) : v'.top.at? place = some (.file old) := by
  cases h with
  | replaced _ _ _ _ hf =>
    rw [has, hf] at hhas
    cases hhas
  | created new _ _ hnone hr =>
    have hne : place ≠ new := by
      rintro rfl
      rw [hnone] at hp
      cases hp
    have ha := hr.elsewhere place hne
    rw [hp] at ha
    generalize v'.top.at? place = o at ha ⊢
    cases ha with
    | some ha =>
      cases ha
      rfl
  | swallowed _ _ _ hv => rwa [hv]

theorem written_of_put_file (hf : v.reach cwd path = .ok (.found ⟨place, .file old, links⟩))
    (content : ByteArray) : v.Written cwd path content (v.put place (.file content)) := by
  have hf : v.find cwd path = .ok ⟨place, .file old, links⟩ := by rw [find, hf]
  have hw := rewritten_of_file (at?_of_follow (follow_of_find hf)) content
  obtain ⟨links', hf'⟩ := hw.find_eq hf
  exact Written.replaced place old links links' hf hw hf'

theorem written_of_put_vacant (ht : v.top.isDirectory = true)
    (hv : v.reach cwd path = .ok (.vacant directory name)) (content : ByteArray) :
    v.Written cwd path content (v.put (directory ++ [name]) (.file content)) := by
  have htakes := takes_of_reach hv
  have hfollow := (htakes.reach_eq v cwd).symm.trans hv
  obtain ⟨hd, hn⟩ := vacant_of_follow ht (hasDirectory_nil ht) hfollow
  have hno : ¬ v.HasDirectory (directory ++ [name]) := by
    rintro ⟨entries, he⟩
    rw [hn] at he
    cases he
  have hw := hd.rewritten hno content
  obtain ⟨links', hfollow'⟩ := hw.follow_eq hn hfollow
  refine Written.created _ links' ?_ hn hw (htakes.find_eq_ok hfollow')
  rw [has, find, hv]

theorem fitting_of_takes (h : v.takes content = true) : v.fitting content = content := by
  rw [takes] at h
  rw [fitting]
  split
  · rename_i room hr
    rw [hr, decide_eq_true_iff] at h
    apply ByteArray.ext
    rw [ByteArray.data_extract]
    exact Array.extract_eq_self_of_le h
  · rfl

theorem fitting_prefix (v : Volume) (content : ByteArray) :
    (v.fitting content).data.toList <+: content.data.toList := by
  rw [fitting]
  split
  · rw [ByteArray.data_extract, Array.toList_extract]
    exact List.take_prefix _ _
  · exact List.prefix_refl _

theorem eq_put_of_fill {after : Volume} (h : v.fill place content = (after, none)) :
    after = v.put place (.file content) := by
  rw [fill] at h
  split at h
  · cases h
  split at h
  · rename_i htakes
    rw [fitting_of_takes htakes] at h
    exact (Prod.mk.inj h).1.symm
  · cases h

/-- What comes of writing a file: the volume afterwards, and what went wrong if something did. -/
inductive WriteResult (v : Volume) (cwd path : RawText) (content : ByteArray) :
    Volume × Option FileError → Prop
  | done (v' : Volume) : v.Written cwd path content v' → WriteResult v cwd path content (v', none)
  /-- The start of the content is written. -/
  | cut (v' : Volume) (start : ByteArray) : start.data.toList <+: content.data.toList →
    v.Written cwd path start v' → WriteResult v cwd path content (v', some .full)
  /-- Nothing is changed. -/
  | failed (error : FileError) : WriteResult v cwd path content (v, some error)

theorem writeResult_fill (h : ∀ content, v.Written cwd path content (v.put place (.file content)))
    (content : ByteArray) : v.WriteResult cwd path content (v.fill place content) := by
  rw [fill]
  split
  · exact WriteResult.failed _
  split
  · rename_i htakes
    rw [fitting_of_takes htakes]
    exact WriteResult.done _ (h content)
  · exact WriteResult.cut _ _ (v.fitting_prefix content) (h _)

theorem writeResult (ht : v.top.isDirectory = true) (cwd path : RawText) (content : ByteArray) :
    v.WriteResult cwd path content (v.write cwd path content) := by
  rw [write]
  split
  · rename_i hreach
    exact writeResult_fill (written_of_put_file hreach) content
  · rename_i place links hreach
    cases v.refusal .write place with
    | none => exact WriteResult.done v (Written.swallowed place links (by rw [find, hreach]) rfl)
    | some error => exact WriteResult.failed error
  · exact WriteResult.failed _
  · rename_i hreach
    exact writeResult_fill (written_of_put_vacant ht hreach) content
  · exact WriteResult.failed _

end Volume

end CodeOutline
