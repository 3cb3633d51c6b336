import CodeOutline.Proofs.Path
import CodeOutline.Proofs.Text.Decode
import CodeOutline.Proofs.Volume.Resolve
import CodeOutline.Volume.Edit

/-! # Files in a directory

A directory that is named from the top down is where its path leads, and a path that goes on from it
is followed from there. A file that is written in it is one more entry of it, and nothing else in it
changes.
-/

namespace CodeOutline

namespace Path

variable {names : List RawText} {name : RawText}

theorem isAbsolute_eq_false (h : ProperName name) : isAbsolute name = false :=
  isAbsolute_of_noSlash h.noSlash

theorem parts_join_name (hn : ∀ n ∈ names, ProperName n) (h : ProperName name) :
    isAbsolute (join (ofNames names) name) = true ∧
      parts (join (ofNames names) name) = ("" : RawText) :: (names ++ [name]) := by
  have hj := join_ofNames (fun n hm => (hn n hm).noSlash) (fun he => (hn "" he).ne_empty rfl)
    (isAbsolute_eq_false h)
  rwa [parts_of_noSlash h.noSlash] at hj

theorem absolute_point (hn : ∀ n ∈ names, ProperName n) :
    absolute (ofNames names) "." = ofNames names := by
  have hj := (join_ofNames (fun n hm => (hn n hm).noSlash) (fun he => (hn "" he).ne_empty rfl)
    (q := ".") rfl).2
  have hp : parts "." = [("." : RawText)] := rfl
  rw [absolute, Path.names, hj, hp, List.foldl_cons, List.foldl_append,
    foldl_enter fun n hm => ⟨(hn n hm).ne_empty, (hn n hm).ne_point, (hn n hm).ne_points⟩]
  rfl

end Path

namespace Node

variable {n new : Node} {name : RawText} {place : List RawText} {entries : List (RawText × Node)}

theorem lookup_setEntry (name : RawText) (new : Node) (es : List (RawText × Node))
    (other : RawText) :
    (setEntry name new es).lookup other = if name = other then some new else es.lookup other := by
  induction es with
  | nil =>
    rw [setEntry, List.lookup_cons]
    by_cases ho : name = other
    · simp [ho]
    · simp [ho, beq_eq_false_iff_ne.mpr (Ne.symm ho)]
  | cons e es ih =>
    obtain ⟨first, node⟩ := e
    rw [setEntry]
    by_cases hf : first = name
    · subst hf
      rw [if_pos rfl, List.lookup_cons, List.lookup_cons]
      by_cases ho : first = other
      · simp [ho]
      · simp [ho, beq_eq_false_iff_ne.mpr (Ne.symm ho)]
    · rw [if_neg hf, List.lookup_cons, List.lookup_cons, ih]
      by_cases ho : name = other
      · subst ho
        simp [beq_eq_false_iff_ne.mpr (Ne.symm hf)]
      · simp [ho]

theorem setEntry_of_lookup (h : entries.lookup name = none) (new : Node) :
    setEntry name new entries = entries ++ [(name, new)] := by
  induction entries with
  | nil => rfl
  | cons e es ih =>
    obtain ⟨first, node⟩ := e
    rw [List.lookup_cons] at h
    split at h
    · cases h
    · rename_i hne
      have hf : first ≠ name := fun he => by simp [he] at hne
      rw [setEntry, if_neg hf, ih h, List.cons_append]

theorem setEntry_perm (h : entries.lookup name = none) (new : Node) :
    (setEntry name new entries).Perm ((name, new) :: entries) := by
  rw [setEntry_of_lookup h]
  exact List.perm_append_singleton _ _

theorem put_nil (n new : Node) : n.put [] new = new := by
  cases n <;> rfl

/-- What is put below a directory changes nothing but the directory. -/
theorem at?_put (h : n.at? place = some (.directory entries)) (names : List RawText) (new : Node) :
    (n.put (place ++ names) new).at? place = some ((directory entries).put names new) := by
  induction place generalizing n with
  | nil =>
    rw [at?_nil] at h
    cases h
    exact at?_nil _
  | cons name place ih =>
    obtain ⟨es, rfl⟩ := eq_directory_of_at? h
    rw [at?_directory] at h
    obtain ⟨child, hc, hchild⟩ := Option.bind_eq_some_iff.mp h
    rw [List.cons_append, put, hc, Option.getD_some, at?_directory, lookup_setEntry,
      if_pos rfl]
    exact ih hchild

end Node

namespace Volume

variable {v : Volume} {cwd name : RawText} {place : List RawText} {entries : List (RawText × Node)}
  {content : ByteArray}

/-- At a place there is a directory with these entries. -/
structure DirectoryAt (v : Volume) (place : List RawText) (entries : List (RawText × Node)) :
    Prop where
  names : ∀ name ∈ place, ProperName name
  stands : v.top.at? place = some (.directory entries)

theorem follow_idle {part : RawText} (h : Path.isIdle part = true) (links : Nat)
    (place parts : List RawText) :
    v.follow links place (part :: parts) = v.follow links place parts := by
  have hi : part = "" ∨ part = "." := by simpa [Path.isIdle] using h
  have ha : v.advance place (part :: parts) = v.advance place parts := by
    rw [advance, if_pos (by tauto), Path.enter, if_pos hi]
  rw [follow, follow, ha]

theorem follow_slash (links : Nat) (place parts : List RawText) :
    v.follow links place (("" : RawText) :: parts) = v.follow links place parts :=
  follow_idle rfl links place parts

namespace DirectoryAt

theorem follow_append (h : v.DirectoryAt place entries) (links : Nat) (rest : List RawText) :
    v.follow links [] (("" : RawText) :: (place ++ rest)) = v.follow links place rest := by
  have hs : v.top.at? ([] ++ place) = some (.directory entries) := h.stands
  rw [follow_slash]
  exact follow_names h.names hs links rest

theorem follow_self (h : v.DirectoryAt place entries) (links : Nat) :
    v.follow links place [] = .ok (.found ⟨place, .directory entries, links⟩) := by
  rw [follow, advance, h.stands]

theorem follow_ofNames (h : v.DirectoryAt place entries) (links : Nat) :
    v.follow links [] (Path.parts (Path.ofNames place)) =
      .ok (.found ⟨place, .directory entries, links⟩) := by
  by_cases hne : place = []
  · subst hne
    rw [show Path.parts (Path.ofNames []) = [("" : RawText), ("" : RawText)] from rfl, follow_slash, follow_slash]
    exact h.follow_self links
  · have ha := h.follow_append links []
    rw [List.append_nil] at ha
    rw [Path.parts_ofNames (fun n hm => (h.names n hm).noSlash) hne, ha, h.follow_self]

theorem follow_join (h : v.DirectoryAt place entries) (hn : ProperName name) (links : Nat) :
    v.follow links [] (Path.parts (Path.join (Path.ofNames place) name)) =
      v.follow links place [name] := by
  rw [(Path.parts_join_name h.names hn).2, h.follow_append]

theorem follow_vacant (h : v.DirectoryAt place entries) (hn : ProperName name)
    (hv : entries.lookup name = none) (links : Nat) :
    v.follow links place [name] = .ok (.vacant place name) := by
  have ha : v.advance place [name] = .ok (.vacant place name) := by
    rw [advance_proper hn, Node.at?_concat h.stands, hv]
    rfl
  rw [follow, ha]

theorem follow_file (h : v.DirectoryAt place entries) (hn : ProperName name)
    (hf : entries.lookup name = some (.file content)) (links : Nat) :
    v.follow links place [name] = .ok (.found ⟨place ++ [name], .file content, links⟩) :=
  follow_name hn ((Node.at?_concat h.stands name).trans hf) nofun links

end DirectoryAt

/-- A path that the system looks up. -/
structure Takes (path : RawText) : Prop where
  noNul : 0 ∉ path.bytes
  ne_empty : path ≠ ""
  short : path.size ≤ pathLimit

theorem Takes.reach_eq {path : RawText} (h : Takes path) (v : Volume) (cwd : RawText) :
    v.reach cwd path = v.follow linkLimit [] (Path.parts (Path.join cwd path)) := by
  have hnul : ¬ path.bytes.contains 0 = true := mt List.contains_iff_mem.mp h.noNul
  rw [reach, if_neg hnul, if_neg (mt Path.isEmpty_iff.mp h.ne_empty),
    if_neg (Nat.not_lt.mpr h.short)]

theorem Takes.find_eq_ok {path : RawText} {f : Found} (h : Takes path)
    (hf : v.follow linkLimit [] (Path.parts (Path.join cwd path)) = .ok (.found f)) :
    v.find cwd path = .ok f := by
  rw [find, h.reach_eq, hf]

/-- The system looks a path up whatever there is, or never. -/
theorem takes_of_reach {path : RawText} {d : Destination} (h : v.reach cwd path = .ok d) :
    Takes path := by
  rw [reach] at h
  split at h
  · cases h
  rename_i hnul
  split at h
  · cases h
  rename_i hempty
  split at h
  · cases h
  rename_i hlong
  constructor
  · exact mt List.contains_iff_mem.mpr hnul
  · exact mt Path.isEmpty_iff.mpr hempty
  · exact Nat.not_lt.mp hlong

theorem takes_of_find {path : RawText} {f : Found} (h : v.find cwd path = .ok f) : Takes path := by
  rw [find] at h
  split at h
  · rename_i hr
    exact takes_of_reach hr
  · cases h
  · cases h

theorem takes_of_isDirectory {path : RawText} (h : v.isDirectory cwd path = true) : Takes path := by
  rw [isDirectory] at h
  split at h
  · rename_i hf
    exact takes_of_find hf
  · cases h

theorem takes_of_read {path : RawText} {content : ByteArray} (h : v.read cwd path = .ok content) :
    Takes path := by
  rw [read] at h
  split at h
  · rename_i hf
    exact takes_of_find hf
  · cases h

theorem reach_cases (v : Volume) (cwd path : RawText) :
    (∃ e, v.reach cwd path = .error e) ∨
      v.reach cwd path = v.follow linkLimit [] (Path.parts (Path.join cwd path)) := by
  cases hr : v.reach cwd path with
  | error e => exact Or.inl ⟨e, rfl⟩
  | ok d =>
    rw [(takes_of_reach hr).reach_eq] at hr
    exact Or.inr hr.symm

theorem readText_eq_ok {path : RawText} {text : String} (h : v.read cwd path = .ok text.toUTF8) :
    v.readText cwd path = .ok text := by
  have ht : Utf8.text? text.toUTF8.data.toList = some text := Utf8.text?_bytes text
  rw [readText, h]
  dsimp only
  rw [ht]

/-! ## Paths to the directory and to a name in it -/

namespace DirectoryAt

theorem find_self (h : v.DirectoryAt place entries) (ht : Takes (Path.ofNames place))
    (cwd : RawText) :
    v.find cwd (Path.ofNames place) = .ok ⟨place, .directory entries, linkLimit⟩ := by
  have ha : Path.isAbsolute (Path.ofNames place) = true := Path.isAbsolute_cons _
  apply ht.find_eq_ok
  rw [Path.join_of_isAbsolute cwd ha, h.follow_ofNames]

theorem reach_name (h : v.DirectoryAt place entries) (hn : ProperName name) (ht : Takes name) :
    v.reach (Path.ofNames place) name = v.follow linkLimit place [name] := by
  rw [ht.reach_eq, h.follow_join hn]

theorem reach_join (h : v.DirectoryAt place entries) (hn : ProperName name)
    (ht : Takes (Path.join (Path.ofNames place) name)) (cwd : RawText) :
    v.reach cwd (Path.join (Path.ofNames place) name) = v.follow linkLimit place [name] := by
  rw [ht.reach_eq, Path.join_of_isAbsolute cwd (Path.parts_join_name h.names hn).1,
    h.follow_join hn]

theorem isFile_join_eq_false (h : v.DirectoryAt place entries) (hn : ProperName name)
    (hf : ∀ content, entries.lookup name ≠ some (.file content))
    (hl : ∀ target, entries.lookup name ≠ some (.link target)) (cwd : RawText) :
    v.isFile cwd (Path.join (Path.ofNames place) name) = false := by
  rw [isFile, find]
  rcases v.reach_cases cwd (Path.join (Path.ofNames place) name) with ⟨e, he⟩ | he
  · rw [he]
  rw [he, Path.join_of_isAbsolute cwd (Path.parts_join_name h.names hn).1, h.follow_join hn]
  cases hnode : entries.lookup name with
  | none => rw [h.follow_vacant hn hnode]
  | some node =>
    have hstands := (Node.at?_concat h.stands name).trans hnode
    rw [follow_name hn hstands fun target ht => hl target (ht ▸ hnode)]
    cases node with
    | file content => exact absurd hnode (hf content)
    | link target => rfl
    | directory entries => rfl
    | device => rfl

/-! ## A new file -/

theorem has_eq_false (h : v.DirectoryAt place entries) (hn : ProperName name) (ht : Takes name)
    (hv : entries.lookup name = none) : v.has (Path.ofNames place) name = false := by
  rw [has, find, h.reach_name hn ht, h.follow_vacant hn hv]

theorem write_eq (h : v.DirectoryAt place entries) (hn : ProperName name) (ht : Takes name)
    (hv : entries.lookup name = none) (content : ByteArray) :
    v.write (Path.ofNames place) name content = v.fill (place ++ [name]) content := by
  rw [write, h.reach_name hn ht, h.follow_vacant hn hv]

theorem put (h : v.DirectoryAt place entries) (name : RawText) (content : ByteArray) :
    (v.put (place ++ [name]) (.file content)).DirectoryAt place
      (Node.setEntry name (.file content) entries) where
  names := h.names
  stands := by
    rw [Volume.put, Node.at?_put h.stands, Node.put, Node.put_nil]

theorem isFile_join (h : v.DirectoryAt place entries) (hn : ProperName name)
    (ht : Takes (Path.join (Path.ofNames place) name))
    (hf : entries.lookup name = some (.file content)) (cwd : RawText) :
    v.isFile cwd (Path.join (Path.ofNames place) name) = true := by
  rw [isFile, find, h.reach_join hn ht, h.follow_file hn hf]
  rfl

/-- A file that is read has the content that stands there. -/
theorem eq_of_read_join (h : v.DirectoryAt place entries) (hn : ProperName name)
    (ht : Takes (Path.join (Path.ofNames place) name))
    (hf : entries.lookup name = some (.file content)) {cwd : RawText} {other : ByteArray}
    (hr : v.read cwd (Path.join (Path.ofNames place) name) = .ok other) : other = content := by
  rw [read, find, h.reach_join hn ht, h.follow_file hn hf] at hr
  dsimp only at hr
  rw [target] at hr
  cases hrefusal : v.refusal .read (place ++ [name]) with
  | none =>
    rw [hrefusal] at hr
    cases hr
    rfl
  | some e =>
    rw [hrefusal] at hr
    cases hr

end DirectoryAt

end Volume

end CodeOutline
