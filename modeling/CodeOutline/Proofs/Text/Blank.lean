import CodeOutline.Text.Blank

/-! # Blanks at the ends of a text

Blanks at the ends of a text change neither its words nor its collapsed form, and trimming takes
exactly those blanks away. A collapsed form has the characters of its text that are no blanks, and
spaces.
-/

namespace CodeOutline.Text

variable {x : Char} {word u t : List Char} {done : List (List Char)}

/-- A text of blanks. -/
def Blank (t : List Char) : Prop :=
  ∀ x ∈ t, isBlank x = true

theorem gatherWords_of_blank (h : Blank t) :
    gatherWords word done t = gatherWords word done [] := by
  induction t generalizing word done with
  | nil => rfl
  | cons x t ih =>
    have hx : isBlank x = true := h x List.mem_cons_self
    have ht : Blank t := fun y hy => h y (List.mem_cons_of_mem x hy)
    simp only [gatherWords, hx, if_true, ih ht, List.isEmpty_nil]

theorem words_blank_append (h : Blank t) (u : List Char) : words (t ++ u) = words u := by
  induction t with
  | nil => rfl
  | cons x t ih =>
    have hx : isBlank x = true := h x List.mem_cons_self
    rw [← ih fun y hy => h y (List.mem_cons_of_mem x hy), words, List.cons_append, gatherWords,
      if_pos hx]
    rfl

theorem gatherWords_append_blank (h : Blank t) (u : List Char) :
    gatherWords word done (u ++ t) = gatherWords word done u := by
  induction u generalizing word done with
  | nil => exact gatherWords_of_blank h
  | cons x u ih =>
    rw [List.cons_append, gatherWords, gatherWords]
    split
    · exact ih
    · exact ih

theorem words_append_blank (h : Blank t) (u : List Char) : words (u ++ t) = words u :=
  gatherWords_append_blank h u

theorem collapseChars_blank_append (h : Blank t) (u : List Char) :
    collapseChars (t ++ u) = collapseChars u := by
  rw [collapseChars, words_blank_append h, collapseChars]

theorem collapseChars_append_blank (h : Blank t) (u : List Char) :
    collapseChars (u ++ t) = collapseChars u := by
  rw [collapseChars, words_append_blank h, collapseChars]

theorem blank_takeWhile (u : List Char) : Blank (u.takeWhile isBlank) :=
  List.all_eq_true.mp List.all_takeWhile

theorem head?_dropWhile_isBlank (u : List Char) :
    ∀ x ∈ (u.dropWhile isBlank).head?, isBlank x = false := by
  intro x hx
  have := List.head?_dropWhile_not isBlank u
  rw [Option.mem_def] at hx
  simpa [hx] using this

theorem exists_eq_blank_append (u : List Char) :
    ∃ lead v, u = lead ++ v ∧ Blank lead ∧ ∀ x ∈ v.head?, isBlank x = false :=
  ⟨u.takeWhile isBlank, u.dropWhile isBlank, List.takeWhile_append_dropWhile.symm,
    blank_takeWhile u, head?_dropWhile_isBlank u⟩

/-- A text is blanks, a core that ends in no blank, and blanks again. The core starts with no blank,
and where it is empty so are the blanks after it. -/
theorem exists_eq_core (u : List Char) :
    ∃ lead core trail, u = lead ++ (core ++ trail) ∧ Blank lead ∧ Blank trail ∧
      (∀ x ∈ (core ++ trail).head?, isBlank x = false) ∧
      ∀ p x q, core = p ++ x :: q → ¬ Blank (x :: q) := by
  obtain ⟨lead, v, rfl, hl, hv⟩ := exists_eq_blank_append u
  obtain ⟨trail, core, hr, ht, hc⟩ := exists_eq_blank_append v.reverse
  have he : v = core.reverse ++ trail.reverse := by
    rw [← List.reverse_append, ← hr, List.reverse_reverse]
  refine ⟨lead, core.reverse, trail.reverse, by rw [he], hl,
    fun x hx => ht x (List.mem_reverse.mp hx), by rwa [← he], fun p x q hpq hb => ?_⟩
  -- The last character of the core is the first one after the blanks in the reversed text.
  have hcore : core = (x :: q).reverse ++ p.reverse := by
    rw [← List.reverse_append, ← hpq, List.reverse_reverse]
  cases hq : (x :: q).reverse with
  | nil => simp at hq
  | cons y w =>
    have hy : y ∈ x :: q := by
      rw [← List.mem_reverse, hq]
      exact List.mem_cons_self
    have := hc y (by rw [hcore, hq]; rfl)
    rw [hb y hy] at this
    cases this

theorem trimChars_eq_self (h : ∀ x ∈ u, isBlank x = false) : trimChars u = u := by
  have hd : ∀ v : List Char, (∀ x ∈ v, isBlank x = false) → v.dropWhile isBlank = v := by
    intro v hv
    cases v with
    | nil => rfl
    | cons x v => rw [List.dropWhile_cons, hv x List.mem_cons_self, if_neg Bool.false_ne_true]
  rw [trimChars, hd u h, hd _ fun x hx => h x (List.mem_reverse.mp hx), List.reverse_reverse]

theorem gatherWords_of_no_blank (h : ∀ x ∈ u, isBlank x = false) :
    gatherWords word done u = gatherWords (u.reverse ++ word) done [] := by
  induction u generalizing word with
  | nil => rfl
  | cons x u ih =>
    rw [gatherWords.eq_2, h x List.mem_cons_self, if_neg Bool.false_ne_true,
      ih fun y hy => h y (List.mem_cons_of_mem x hy), List.reverse_cons, List.append_assoc,
      List.singleton_append]

theorem collapseChars_eq_self (h : ∀ x ∈ u, isBlank x = false) : collapseChars u = u := by
  rw [collapseChars, words, gatherWords_of_no_blank h, gatherWords, List.append_nil]
  cases u with
  | nil => rfl
  | cons x u => simp

/-! ## Characters of a collapsed form -/

theorem mem_flatten_finishWord :
    x ∈ (if word.isEmpty then done else word.reverse :: done).flatten ↔
      x ∈ word ∨ x ∈ done.flatten := by
  cases word with
  | nil => simp
  | cons y w => rw [List.isEmpty_cons, if_neg Bool.false_ne_true, List.flatten_cons,
      List.mem_append, List.mem_reverse]

theorem mem_flatten_gatherWords : x ∈ (gatherWords word done t).flatten ↔
    x ∈ word ∨ x ∈ done.flatten ∨ (x ∈ t ∧ isBlank x = false) := by
  induction t generalizing word done with
  | nil =>
    rw [gatherWords, (List.reverse_perm _).flatten.mem_iff, mem_flatten_finishWord]
    simp
  | cons y t ih =>
    have hy : x ∈ y :: t ∧ isBlank x = false ↔
        (x = y ∧ isBlank y = false) ∨ (x ∈ t ∧ isBlank x = false) := by
      rw [List.mem_cons, or_and_right]
      exact or_congr_left (and_congr_right fun h => by rw [h])
    rw [gatherWords, hy]
    split
    · rename_i hb
      rw [ih, mem_flatten_finishWord, hb]
      simp [or_assoc]
    · rename_i hb
      rw [Bool.not_eq_true] at hb
      rw [ih, List.mem_cons, hb]
      simp only [and_true, or_assoc, or_left_comm]

theorem mem_flatten_words : x ∈ (words t).flatten ↔ x ∈ t ∧ isBlank x = false := by
  rw [words, mem_flatten_gatherWords]
  simp

/-- A collapsed form has no other blanks than spaces. -/
theorem mem_collapseChars (hx : x ≠ ' ') :
    x ∈ collapseChars t ↔ x ∈ t ∧ isBlank x = false := by
  rw [← mem_flatten_words, collapseChars]
  generalize words t = ws
  induction ws with
  | nil => rfl
  | cons w ws ih =>
    cases ws with
    | nil => simp [List.intercalate]
    | cons w' ws => simp [List.intercalate_cons_cons, ih, hx]

theorem mem_collapse {s : String} (hx : x ≠ ' ') (hb : isBlank x = false) :
    x ∈ (collapse s).toList ↔ x ∈ s.toList := by
  rw [collapse, String.toList_ofList, mem_collapseChars hx, and_iff_left hb]

end CodeOutline.Text
