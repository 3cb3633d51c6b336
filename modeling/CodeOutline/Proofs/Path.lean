import Mathlib.Data.List.Basic
import Mathlib.Data.List.Induction
import CodeOutline.Path

/-! # Paths of names

Names without slashes are found again in the path that they make up. So different names have
different paths, and what a path below names goes through is the names and then its own parts.
-/

namespace CodeOutline.Path

variable {ps qs ns : List RawText} {p q : RawText}

theorem splitOn_ofParts (h : ∀ p ∈ ps, slash ∉ p.bytes) (hne : ps ≠ []) :
    (ofParts ps).bytes.splitOn slash = ps.map RawText.bytes := by
  refine List.splitOn_intercalate slash ?_ (by simpa using hne)
  intro bs hbs
  obtain ⟨p, hp, rfl⟩ := List.mem_map.mp hbs
  exact h p hp

theorem ofParts_inj (hps : ∀ p ∈ ps, slash ∉ p.bytes) (hqs : ∀ q ∈ qs, slash ∉ q.bytes)
    (hp : ps ≠ []) (hq : qs ≠ []) (h : ofParts ps = ofParts qs) : ps = qs := by
  have hs := splitOn_ofParts hps hp
  rw [h, splitOn_ofParts hqs hq] at hs
  exact (List.map_injective_iff.mpr (fun _ _ => RawText.ext_bytes) hs).symm

theorem bytes_ofParts_cons_cons (n m : RawText) (ns : List RawText) :
    (ofParts (n :: m :: ns)).bytes = n.bytes ++ slash :: (ofParts (m :: ns)).bytes :=
  (List.intercalate_cons_cons ..).trans (List.append_assoc ..)

theorem notMem_ofParts {b : UInt8} (hb : b ≠ slash) (h : ∀ n ∈ ns, b ∉ n.bytes) :
    b ∉ (ofParts ns).bytes := by
  induction ns with
  | nil => exact List.not_mem_nil
  | cons n ns ih =>
    rw [List.forall_mem_cons] at h
    cases ns with
    | nil => simpa [ofParts] using h.1
    | cons m ns =>
      rw [bytes_ofParts_cons_cons]
      simp [h.1, hb, ih h.2]

/-! ## Parts -/

theorem splitSlashes_eq (bs : List UInt8) : splitSlashes bs = bs.splitOn slash := by
  induction bs with
  | nil => rfl
  | cons b bs ih =>
    rw [splitSlashes, ih, List.splitOn_cons_eq_if_modifyHead]
    by_cases hb : b = slash
    · rw [if_pos hb, if_pos (beq_iff_eq.mpr hb)]
    · rw [if_neg hb, if_neg (mt beq_iff_eq.mp hb)]
      cases hs : bs.splitOn slash with
      | nil => exact absurd hs (List.splitOn_ne_nil slash bs)
      | cons first others => rfl

theorem parts_append (bs cs : List UInt8) :
    parts ⟨bs ++ slash :: cs⟩ = parts ⟨bs⟩ ++ parts ⟨cs⟩ := by
  rw [parts, parts, parts, splitSlashes_eq, List.splitOn_append_cons_self, splitSlashes_eq,
    splitSlashes_eq, List.map_append]

theorem parts_of_noSlash (h : slash ∉ p.bytes) : parts p = [p] := by
  rw [parts, splitSlashes_eq, List.splitOn_eq_singleton h, List.map_singleton]

theorem parts_ofParts (hs : ∀ n ∈ ns, slash ∉ n.bytes) (hne : ns ≠ []) :
    parts (ofParts ns) = ns := by
  rw [parts, splitSlashes_eq, splitOn_ofParts hs hne, List.map_map]
  exact List.map_id _

theorem parts_ofNames (hs : ∀ n ∈ ns, slash ∉ n.bytes) (hne : ns ≠ []) :
    parts (ofNames ns) = ("" : RawText) :: ns := by
  have ha := parts_append [] (ofParts ns).bytes
  rw [List.nil_append] at ha
  rw [ofNames, ha, parts_ofParts hs hne]
  rfl

/-! ## Paths that go on -/

theorem isAbsolute_cons (bs : List UInt8) : isAbsolute ⟨slash :: bs⟩ = true :=
  beq_self_eq_true (some slash)

theorem join_of_isAbsolute (p : RawText) (h : isAbsolute q = true) : join p q = q := by
  rw [join, h, Bool.true_or, if_pos rfl]

theorem isAbsolute_of_noSlash (h : slash ∉ p.bytes) : isAbsolute p = false := by
  rw [isAbsolute, beq_eq_false_iff_ne]
  exact fun he => h (List.mem_of_head? he)

theorem ne_empty_of_isAbsolute (h : isAbsolute p = true) : p ≠ "" := by
  rintro rfl
  cases h

theorem isEmpty_iff : p.isEmpty = true ↔ p = "" := by
  rw [RawText.isEmpty, List.isEmpty_iff]
  exact ⟨fun h => RawText.ext_bytes h, fun h => congrArg RawText.bytes h⟩

theorem exists_join_eq (p : RawText) (hq : isAbsolute q = false) :
    ∃ r : RawText, join p q = p ++ r := by
  rw [join, hq, Bool.false_or]
  split
  · rename_i he
    rw [isEmpty_iff.mp he]
    exact ⟨q, rfl⟩
  split
  · exact ⟨q, rfl⟩
  · exact ⟨⟨slash :: q.bytes⟩, rfl⟩

theorem mem_parts_of_isAbsolute (h : isAbsolute p = true) : ("" : RawText) ∈ parts p := by
  rw [isAbsolute, beq_iff_eq] at h
  rw [parts]
  cases hp : p.bytes with
  | nil =>
    rw [hp] at h
    cases h
  | cons b bs =>
    rw [hp, List.head?_cons, Option.some_inj] at h
    rw [splitSlashes, if_pos h]
    exact List.mem_cons_self

theorem isAbsolute_ofParts (hs : ∀ n ∈ ns, slash ∉ n.bytes) (he : ("" : RawText) ∉ ns) (hne : ns ≠ []) :
    isAbsolute (ofParts ns) = false := by
  rw [Bool.eq_false_iff]
  intro h
  have hm := mem_parts_of_isAbsolute h
  rw [parts_ofParts hs hne] at hm
  exact he hm

theorem getLast?_ofNames_ne (hs : ∀ n ∈ ns, slash ∉ n.bytes) (he : ("" : RawText) ∉ ns) (hne : ns ≠ []) :
    (ofNames ns).bytes.getLast? ≠ some slash := by
  intro h
  obtain ⟨bs, hbs⟩ := List.getLast?_eq_some_iff.mp h
  have hp := parts_ofNames hs hne
  have hbs : ofNames ns = ⟨bs ++ slash :: []⟩ := RawText.ext_bytes hbs
  rw [hbs, parts_append] at hp
  have hlast : (("" : RawText) :: ns).getLast? = some "" := by
    rw [← hp]
    exact List.getLast?_concat
  rw [List.getLast?_cons_of_ne_nil hne] at hlast
  exact he (List.mem_of_getLast? hlast)

theorem join_ofNames (hs : ∀ n ∈ ns, slash ∉ n.bytes) (he : ("" : RawText) ∉ ns)
    (hq : isAbsolute q = false) :
    isAbsolute (join (ofNames ns) q) = true ∧
      parts (join (ofNames ns) q) = ("" : RawText) :: (ns ++ parts q) := by
  have hn : (ofNames ns).isEmpty = false := rfl
  rw [join, hq, hn, Bool.or_self, if_neg Bool.false_ne_true]
  cases ns with
  | nil =>
    have hlast : ((ofNames []).bytes.getLast? == some slash) = true := rfl
    rw [if_pos hlast]
    refine ⟨isAbsolute_cons q.bytes, ?_⟩
    exact parts_append [] q.bytes
  | cons n ns =>
    have hlast := getLast?_ofNames_ne hs he (List.cons_ne_nil n ns)
    rw [if_neg (mt beq_iff_eq.mp hlast)]
    refine ⟨isAbsolute_cons _, ?_⟩
    rw [parts_append]
    change parts (ofNames (n :: ns)) ++ _ = _
    rw [parts_ofNames hs (List.cons_ne_nil n ns)]
    rfl

/-! ## Names -/

theorem foldl_enter (h : ∀ n ∈ ns, n ≠ "" ∧ n ≠ "." ∧ n ≠ "..") (place : List RawText) :
    ns.foldl enter place = place ++ ns := by
  induction ns generalizing place with
  | nil => exact (List.append_nil place).symm
  | cons n ns ih =>
    rw [List.forall_mem_cons] at h
    rw [List.foldl_cons, enter, if_neg (by tauto), if_neg h.1.2.2, ih h.2, List.append_assoc]
    rfl

/-! ## Prefixes -/

/-- The parts of a path that lead on. -/
def steps (ps : List RawText) : List RawText :=
  ps.filter (!isIdle ·)

/-- The parts of a path that goes on come after those of the other one. They take the place of the
empty part after a last slash. -/
theorem exists_parts_join (hp : p ≠ "") (hq : isAbsolute q = false) :
    ∃ ps, (parts p = ps ∨ parts p = ps ++ [("" : RawText)]) ∧ parts (join p q) = ps ++ parts q := by
  have he : p.isEmpty = false := Bool.eq_false_iff.mpr (mt isEmpty_iff.mp hp)
  rw [join, hq, he, Bool.or_self, if_neg Bool.false_ne_true]
  split
  · rename_i hlast
    obtain ⟨bs, hbs⟩ := List.getLast?_eq_some_iff.mp (beq_iff_eq.mp hlast)
    have hp : p = ⟨bs ++ slash :: []⟩ := RawText.ext_bytes hbs
    refine ⟨parts ⟨bs⟩, Or.inr ?_, ?_⟩
    · rw [hp]
      exact parts_append bs []
    · have hj : p ++ q = ⟨bs ++ slash :: q.bytes⟩ := by
        rw [hp]
        exact RawText.ext_bytes (List.append_assoc bs [slash] q.bytes)
      rw [hj, parts_append]
  · exact ⟨parts p, Or.inl rfl, parts_append p.bytes q.bytes⟩

theorem steps_append (ps qs : List RawText) : steps (ps ++ qs) = steps ps ++ steps qs :=
  List.filter_append ..

theorem exists_parts_foldl_join (hp : p ≠ "") (hs : ∀ n ∈ ns, slash ∉ n.bytes) (he : ("" : RawText) ∉ ns)
    (hne : ns ≠ []) :
    ∃ ps, steps ps = steps (parts p) ∧ parts (ns.foldl join p) = ps ++ ns := by
  induction ns using List.reverseRecOn with
  | nil => exact absurd rfl hne
  | append_singleton ns n ih =>
    have hn : slash ∉ n.bytes := hs n (by simp)
    rw [List.foldl_append, List.foldl_cons, List.foldl_nil]
    cases ns with
    | nil =>
      obtain ⟨ps, hps, hj⟩ := exists_parts_join hp (isAbsolute_of_noSlash hn)
      rw [parts_of_noSlash hn] at hj
      refine ⟨ps, ?_, hj⟩
      rcases hps with hps | hps
      · rw [hps]
      · rw [hps, steps_append]
        exact (List.append_nil _).symm
    | cons m ns =>
      obtain ⟨ps, hsteps, hparts⟩ := ih (fun n hn => hs n (List.mem_append_left _ hn))
        (fun hm => he (List.mem_append_left _ hm)) (List.cons_ne_nil m ns)
      -- The last name is not empty, so there is no last slash.
      have hlast : ∀ qs, ps ++ m :: ns ≠ qs ++ [("" : RawText)] := by
        intro qs heq
        have hl := congrArg List.getLast? heq
        rw [List.getLast?_concat, List.getLast?_append, List.getLast?_cons, Option.some_or] at hl
        have hm : ("" : RawText) ∈ m :: ns := List.mem_of_getLast? (by rw [List.getLast?_cons, hl])
        exact he (List.mem_append_left _ hm)
      have hempty : (m :: ns).foldl join p ≠ "" := by
        intro hf
        rw [hf] at hparts
        exact hlast [] hparts.symm
      obtain ⟨qs, hqs, hj⟩ := exists_parts_join hempty (isAbsolute_of_noSlash hn)
      rw [parts_of_noSlash hn] at hj
      refine ⟨ps, hsteps, ?_⟩
      rcases hqs with hqs | hqs
      · rw [hj, ← hqs, hparts, List.append_assoc]
      · exact absurd (hparts.symm.trans hqs) (hlast qs)

theorem dropParts?_idle (hi : isIdle p = true) (qs ps : List RawText) :
    dropParts? qs (p :: ps) = dropParts? qs ps := by
  cases qs with
  | nil => rw [dropParts?, dropParts?, List.dropWhile_cons_of_pos hi]
  | cons q qs => rw [dropParts?, dropParts?, List.dropWhile_cons_of_pos hi]

theorem dropWhile_isIdle (h : ∀ n ∈ ns, isIdle n = false) : ns.dropWhile isIdle = ns := by
  cases ns with
  | nil => rfl
  | cons n ns =>
    rw [List.dropWhile_cons_of_neg (Bool.eq_false_iff.mp (h n List.mem_cons_self))]

theorem dropParts?_append (h : ∀ n ∈ ns, isIdle n = false) (ps : List RawText) :
    dropParts? (steps ps) (ps ++ ns) = some ns := by
  induction ps with
  | nil =>
    rw [steps, List.filter_nil, List.nil_append, dropParts?, dropWhile_isIdle h]
  | cons p ps ih =>
    cases hi : isIdle p with
    | true =>
      rw [steps, List.filter_cons_of_neg (by rw [hi]; decide), List.cons_append,
        dropParts?_idle hi]
      exact ih
    | false =>
      rw [steps, List.filter_cons_of_pos (by rw [hi]; rfl), List.cons_append, dropParts?,
        List.dropWhile_cons_of_neg (by rw [hi]; exact Bool.false_ne_true)]
      dsimp only
      rw [if_pos rfl]
      exact ih

theorem isAbsolute_join (h : isAbsolute p = true) (q : RawText) : isAbsolute (join p q) = true := by
  cases hq : isAbsolute q with
  | true =>
    rw [join_of_isAbsolute p hq]
    exact hq
  | false =>
    obtain ⟨r, hr⟩ := exists_join_eq p hq
    rw [isAbsolute] at h
    rw [hr, isAbsolute, RawText.bytes_append]
    cases hp : p.bytes with
    | nil =>
      rw [hp] at h
      cases h
    | cons c cs =>
      rw [hp] at h
      exact h

theorem isAbsolute_foldl_join (h : isAbsolute p = true) (ns : List RawText) :
    isAbsolute (ns.foldl join p) = true := by
  induction ns generalizing p with
  | nil => exact h
  | cons n ns ih => exact ih (isAbsolute_join h n)

theorem stripPrefix?_foldl_join (h : isAbsolute p = true) (hs : ∀ n ∈ ns, slash ∉ n.bytes)
    (hi : ∀ n ∈ ns, isIdle n = false) (hne : ns ≠ []) :
    stripPrefix? p (ns.foldl join p) = some (ofParts ns) := by
  have he : ("" : RawText) ∉ ns := fun hm => by cases hi "" hm
  obtain ⟨ps, hps, hparts⟩ := exists_parts_foldl_join (ne_empty_of_isAbsolute h) hs he hne
  have hdrop : dropParts? (steps (parts p)) (parts (ns.foldl join p)) = some ns := by
    rw [hparts, ← hps]
    exact dropParts?_append hi ps
  have hends : (ns.reverse.dropWhile isIdle).reverse = ns := by
    rw [dropWhile_isIdle fun n hn => hi n (List.mem_reverse.mp hn), List.reverse_reverse]
  rw [stripPrefix?, h, isAbsolute_foldl_join h ns, Bool.and_self, if_pos rfl]
  change (dropParts? (steps (parts p)) (parts (ns.foldl join p))).map _ = _
  rw [hdrop, Option.map_some, hends]

end CodeOutline.Path
