import CodeOutline.Proofs.Volume.Node

/-! # Paths that go on

A path that goes on from a directory is followed from where it has come to. So names below a
directory lead on from the place of the directory, whatever links led there.
-/

namespace CodeOutline.Volume

/-- What a path has led to. -/
def targetOf (v : Volume) : Except FileError Destination → Except FileError Target
  | .ok (.found f) => .ok (v.target f)
  | .ok (.vacant ..) => .error .missing
  | .error e => .error e

/-- What names below the path of a directory lead to, after following links. The path that they make
up may be too long. -/
def resolve (v : Volume) (cwd root : RawText) (names : List RawText) : Except FileError Target :=
  if pathLimit < (names.foldl Path.join root).size then .error .nameTooLong
  else v.targetOf (v.follow linkLimit [] (Path.parts (Path.join cwd root) ++ names))

/-- Names below the path of a directory lead to a directory, after following links. -/
def LeadsToDirectory (v : Volume) (cwd root : RawText) (names : List RawText) : Prop :=
  ∃ entries refusal, v.resolve cwd root names = .ok ⟨.directory entries, refusal⟩

/-- Names below the path of a directory lead to a directory that can be read. -/
def Opens (v : Volume) (cwd root : RawText) (names : List RawText) : Prop :=
  ∃ entries, v.resolve cwd root names = .ok ⟨.directory entries, none⟩

/-- What stands under names below the path of a directory, with no link followed on the way. -/
def standing? (v : Volume) (cwd root : RawText) (names : List RawText) : Option Node :=
  match v.find cwd root with
  | .ok base => base.node.at? names
  | .error _ => none

/-- A place counts as a directory: one stands there, or a link whose path leads to one. -/
def CountsAsDirectory (v : Volume) (cwd root : RawText) (names : List RawText) : Prop :=
  (∃ entries, v.standing? cwd root names = some (.directory entries)) ∨
    (∃ target, v.standing? cwd root names = some (.link target)) ∧
      v.LeadsToDirectory cwd root names

variable {v : Volume} {cwd root part : RawText} {place place' parts rest names : List RawText}
  {links : Nat} {node : Node} {base f : Found} {entries : List (RawText × Node)} {name : RawText}

theorem advance_proper (h : ProperName part) :
    v.advance place (part :: rest) =
      match v.top.at? (place ++ [part]) with
      | none => if rest = [] then .ok (.vacant place part) else .error .missing
      | some (.link target) => .ok (.link place target rest)
      | some (.directory _) => v.advance (place ++ [part]) rest
      | some node =>
        if rest = [] then .ok (.arrived (place ++ [part]) node) else .error .notDirectory := by
  have hs : ¬ (part = "" ∨ part = "." ∨ part = "..") := by
    rintro (h' | h' | h')
    · exact h.ne_empty h'
    · exact h.ne_point h'
    · exact h.ne_points h'
  rw [advance, if_neg hs]
  exact if_neg (Nat.not_lt.mpr h.short)

/-! ## Paths in two parts -/

/-- A part of a path where it can only end, and not at a directory or a link. -/
structure Stops (v : Volume) (place : List RawText) (part : RawText) : Prop where
  last : ∀ rest, rest ≠ [] → ∃ e, v.advance place (part :: rest) = .error e
  not_link : ∀ directory target rest, v.advance place [part] ≠ .ok (.link directory target rest)
  arrived : ∀ place' node, v.advance place [part] = .ok (.arrived place' node) →
    v.top.at? place' = some node ∧ node.isDirectory = false

theorem stops_of_eq {result : Except FileError Progress} {e : FileError}
    (h : ∀ rest, v.advance place (part :: rest) = if rest = [] then result else .error e)
    (hl : ∀ directory target rest, result ≠ .ok (.link directory target rest))
    (ha : ∀ place' node, result = .ok (.arrived place' node) →
      v.top.at? place' = some node ∧ node.isDirectory = false) : v.Stops place part where
  last rest hne := ⟨e, (h rest).trans (if_neg hne)⟩
  not_link directory target rest := by
    rw [h, if_pos rfl]
    exact hl directory target rest
  arrived place' node hp := by
    rw [h, if_pos rfl] at hp
    exact ha place' node hp

/-- One part of a path leads on whatever comes after it, or is a link, or stops there. -/
theorem advance_step (v : Volume) (place : List RawText) (part : RawText) :
    (∃ next, ∀ rest, v.advance place (part :: rest) = v.advance next rest) ∨
      (∃ target, ∀ rest, v.advance place (part :: rest) = .ok (.link place target rest)) ∨
        v.Stops place part := by
  by_cases hs : part = "" ∨ part = "." ∨ part = ".."
  · exact Or.inl ⟨_, fun rest => by rw [advance, if_pos hs]⟩
  by_cases hl : nameLimit < part.size
  · right; right
    apply stops_of_eq (fun rest => by rw [advance, if_neg hs, if_pos hl, ite_self]) <;> nofun
  cases hn : v.top.at? (place ++ [part]) with
  | none =>
    right; right
    apply stops_of_eq (fun rest => by rw [advance, if_neg hs, if_neg hl, hn]) <;> nofun
  | some n =>
    cases n with
    | directory entries => exact Or.inl ⟨_, fun rest => by rw [advance, if_neg hs, if_neg hl, hn]⟩
    | link target =>
      exact Or.inr (Or.inl ⟨target, fun rest => by rw [advance, if_neg hs, if_neg hl, hn]⟩)
    | file content =>
      right; right
      apply stops_of_eq (fun rest => by rw [advance, if_neg hs, if_neg hl, hn])
      · nofun
      · rintro _ _ ⟨⟩
        exact ⟨hn, rfl⟩
    | device =>
      right; right
      apply stops_of_eq (fun rest => by rw [advance, if_neg hs, if_neg hl, hn])
      · nofun
      · rintro _ _ ⟨⟩
        exact ⟨hn, rfl⟩

theorem advance_append_of_arrived (h : v.advance place parts = .ok (.arrived place' node))
    (hd : node.isDirectory = true) (names : List RawText) :
    v.advance place (parts ++ names) = v.advance place' names := by
  induction parts generalizing place with
  | nil =>
    rw [advance] at h
    split at h
    · cases h
      rfl
    · cases h
  | cons part rest ih =>
    rw [List.cons_append]
    rcases v.advance_step place part with ⟨next, hnext⟩ | ⟨target, hlink⟩ | hstop
    · rw [hnext] at h ⊢
      exact ih h
    · rw [hlink] at h
      cases h
    · cases rest with
      | nil =>
        rw [(hstop.arrived place' node h).2] at hd
        cases hd
      | cons x rest =>
        obtain ⟨e, he⟩ := hstop.last _ (List.cons_ne_nil x rest)
        rw [he] at h
        cases h

theorem advance_append_of_link {directory : List RawText} {target : RawText}
    (h : v.advance place parts = .ok (.link directory target rest)) (names : List RawText) :
    v.advance place (parts ++ names) = .ok (.link directory target (rest ++ names)) := by
  induction parts generalizing place with
  | nil =>
    rw [advance] at h
    split at h <;> cases h
  | cons part parts ih =>
    rw [List.cons_append]
    rcases v.advance_step place part with ⟨next, hnext⟩ | ⟨target, hlink⟩ | hstop
    · rw [hnext] at h ⊢
      exact ih h
    · rw [hlink] at h ⊢
      cases h
      rfl
    · cases parts with
      | nil => exact absurd h (hstop.not_link _ _ _)
      | cons x parts =>
        obtain ⟨e, he⟩ := hstop.last _ (List.cons_ne_nil x parts)
        rw [he] at h
        cases h

theorem at?_of_advance (h : v.advance place parts = .ok (.arrived place' node)) :
    v.top.at? place' = some node := by
  induction parts generalizing place with
  | nil =>
    rw [advance] at h
    split at h
    · cases h
      assumption
    · cases h
  | cons part rest ih =>
    rcases v.advance_step place part with ⟨next, hnext⟩ | ⟨target, hlink⟩ | hstop
    · rw [hnext] at h
      exact ih h
    · rw [hlink] at h
      cases h
    · cases rest with
      | nil => exact (hstop.arrived place' node h).1
      | cons x rest =>
        obtain ⟨e, he⟩ := hstop.last _ (List.cons_ne_nil x rest)
        rw [he] at h
        cases h

theorem follow_append (h : v.follow links place parts = .ok (.found f))
    (hd : f.node.isDirectory = true) (names : List RawText) :
    v.follow links place (parts ++ names) = v.follow f.links f.place names := by
  induction links generalizing place parts with
  | zero =>
    rw [follow] at h
    split at h
    · cases h
    · rename_i place' node ha
      cases h
      rw [follow, advance_append_of_arrived ha hd, follow]
    · cases h
    · cases h
  | succ links ih =>
    rw [follow] at h
    split at h
    · cases h
    · rename_i place' node ha
      cases h
      rw [follow, advance_append_of_arrived ha hd, follow]
    · cases h
    · rename_i directory target rest ha
      rw [follow, advance_append_of_link ha]
      simp only [← List.append_assoc]
      exact ih h

theorem at?_of_follow (h : v.follow links place parts = .ok (.found f)) :
    v.top.at? f.place = some f.node := by
  induction links generalizing place parts with
  | zero =>
    rw [follow] at h
    split at h
    · cases h
    · rename_i ha
      cases h
      exact at?_of_advance ha
    · cases h
    · cases h
  | succ links ih =>
    rw [follow] at h
    split at h
    · cases h
    · rename_i ha
      cases h
      exact at?_of_advance ha
    · cases h
    · exact ih h

/-! ## Names below a directory -/

/-- Proper names of directories are followed one after the other. -/
theorem advance_names (hn : ∀ name ∈ names, ProperName name)
    (h : v.top.at? (place ++ names) = some (.directory entries)) (rest : List RawText) :
    v.advance place (names ++ rest) = v.advance (place ++ names) rest := by
  induction names generalizing place with
  | nil => rw [List.append_nil, List.nil_append]
  | cons name names ih =>
    have ha : place ++ name :: names = place ++ [name] ++ names := by simp
    rw [ha] at h ⊢
    obtain ⟨es, hd⟩ := Node.exists_directory_of_at?_append h
    rw [List.cons_append, advance_proper (hn name List.mem_cons_self), hd]
    exact ih (fun x hx => hn x (List.mem_cons_of_mem name hx)) h

theorem follow_names (hn : ∀ name ∈ names, ProperName name)
    (h : v.top.at? (place ++ names) = some (.directory entries)) (links : Nat)
    (rest : List RawText) :
    v.follow links place (names ++ rest) = v.follow links (place ++ names) rest := by
  rw [follow, follow, advance_names hn h]

theorem follow_name (hn : ProperName name) (h : v.top.at? (place ++ [name]) = some node)
    (hl : ∀ target, node ≠ .link target) (links : Nat) :
    v.follow links place [name] = .ok (.found ⟨place ++ [name], node, links⟩) := by
  have ha : v.advance place [name] = .ok (.arrived (place ++ [name]) node) := by
    rw [advance_proper hn, h]
    cases node with
    | directory entries =>
      change v.advance (place ++ [name]) [] = _
      rw [advance, h]
    | file content => rfl
    | link target => exact absurd rfl (hl target)
    | device => rfl
  rw [follow, ha]

/-! ## Below the directory of a path -/

theorem follow_of_find (h : v.find cwd root = .ok base) :
    v.follow linkLimit [] (Path.parts (Path.join cwd root)) = .ok (.found base) := by
  rw [find, reach] at h
  split at h
  · rename_i hr
    cases h
    split at hr
    · cases hr
    · split at hr
      · cases hr
      · split at hr
        · cases hr
        · exact hr
  · cases h
  · cases h

theorem at?_base (h : v.find cwd root = .ok base) (names : List RawText) :
    v.top.at? (base.place ++ names) = base.node.at? names := by
  rw [Node.at?_append, at?_of_follow (follow_of_find h)]
  rfl

theorem proper_base (hv : v.Proper) (h : v.find cwd root = .ok base) : base.node.Proper :=
  Node.Proper.at? hv (at?_of_follow (follow_of_find h))

theorem standing?_eq (h : v.find cwd root = .ok base) (names : List RawText) :
    v.standing? cwd root names = base.node.at? names := by
  rw [standing?, h]

theorem resolve_eq (h : v.find cwd root = .ok base) (hd : base.node.isDirectory = true)
    (names : List RawText) :
    v.resolve cwd root names =
      if pathLimit < (names.foldl Path.join root).size then .error .nameTooLong
      else v.targetOf (v.follow base.links base.place names) := by
  rw [resolve, follow_append (follow_of_find h) hd]

theorem resolve_append (hv : v.Proper) (h : v.find cwd root = .ok base)
    (hn : base.node.at? names = some (.directory entries)) (parts : List RawText) :
    v.resolve cwd root (names ++ parts) =
      if pathLimit < ((names ++ parts).foldl Path.join root).size then .error .nameTooLong
      else v.targetOf (v.follow base.links (base.place ++ names) parts) := by
  have hd : base.node.isDirectory = true := by
    obtain ⟨es, hb⟩ := Node.eq_directory_of_at? hn
    rw [hb]
    rfl
  have hp := (proper_base hv h).properName_of_at? hn
  rw [resolve_eq h hd, follow_names hp ((at?_base h names).trans hn)]

/-- Names of directories lead to what stands there, if their path is not too long. -/
theorem resolve_directory (hv : v.Proper) (h : v.find cwd root = .ok base)
    (hn : base.node.at? names = some (.directory entries)) :
    v.resolve cwd root names =
      if pathLimit < (names.foldl Path.join root).size then .error .nameTooLong
      else .ok ⟨.directory entries, v.refusal .read (base.place ++ names)⟩ := by
  have ha := (at?_base h names).trans hn
  have hr := resolve_append hv h hn []
  rw [List.append_nil] at hr
  rw [hr, follow, advance, ha]
  rfl

theorem opens_iff (hv : v.Proper) (h : v.find cwd root = .ok base)
    (hn : base.node.at? names = some (.directory entries)) :
    v.Opens cwd root names ↔ (names.foldl Path.join root).size ≤ pathLimit ∧
      v.refusal .read (base.place ++ names) = none := by
  rw [Opens, resolve_directory hv h hn]
  split
  · rename_i hl
    simp [Nat.not_le.mpr hl]
  · rename_i hl
    simp [Nat.not_lt.mp hl]

end CodeOutline.Volume
