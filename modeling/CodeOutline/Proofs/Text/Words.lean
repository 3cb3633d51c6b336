import Mathlib.Data.List.Chain
import Mathlib.Data.List.Pairwise
import CodeOutline.Proofs.Text.Blank

/-! # Words and collapsed forms

A blank parts the words before it from those after it. So a collapsed form has the words of its
text, and a text is its own collapsed form exactly when it has no blank at its ends and every blank
in it is one space.
-/

namespace CodeOutline.Text

variable {x : Char} {t u v w word : List Char} {ws done : List (List Char)}

/-- A word: one character or more, none of them a blank. -/
def IsToken (w : List Char) : Prop :=
  w ≠ [] ∧ ∀ x ∈ w, isBlank x = false

/-! ## Words -/

theorem gatherWords_done (word : List Char) (done : List (List Char)) (t : List Char) :
    gatherWords word done t = done.reverse ++ gatherWords word [] t := by
  induction t generalizing word done with
  | nil => cases word <;> simp [gatherWords]
  | cons y t ih =>
    simp only [gatherWords]
    split
    · rw [ih, ih [] (if word.isEmpty then [] else [word.reverse])]
      cases word <;> simp
    · rw [ih]

theorem gatherWords_append_cons (hx : isBlank x = true) (u v : List Char) :
    gatherWords word done (u ++ x :: v) = gatherWords word done u ++ words v := by
  induction u generalizing word done with
  | nil =>
    simp only [List.nil_append, gatherWords, hx, if_true, words]
    exact gatherWords_done _ _ v
  | cons y u ih =>
    simp only [List.cons_append, gatherWords]
    split
    · exact ih
    · exact ih

theorem words_append_cons (hx : isBlank x = true) (u v : List Char) :
    words (u ++ x :: v) = words u ++ words v :=
  gatherWords_append_cons hx u v

theorem words_of_isToken (h : IsToken w) : words w = [w] := by
  obtain ⟨hne, hw⟩ := h
  simp [words, gatherWords_of_no_blank hw, gatherWords, hne]

theorem nil_notMem_gatherWords (h : [] ∉ done) : [] ∉ gatherWords word done t := by
  induction t generalizing word done with
  | nil => cases word <;> simp [gatherWords, h]
  | cons y t ih =>
    simp only [gatherWords]
    split
    · apply ih
      cases word <;> simp [h]
    · exact ih h

theorem isToken_of_mem_words (h : w ∈ words t) : IsToken w := by
  constructor
  · rintro rfl
    exact nil_notMem_gatherWords List.not_mem_nil h
  · intro x hx
    exact (mem_flatten_words.mp (List.mem_flatten.mpr ⟨w, h, hx⟩)).2

/-- Words that are joined by spaces are found again. -/
theorem words_intercalate (h : ∀ w ∈ ws, IsToken w) : words ([' '].intercalate ws) = ws := by
  induction ws with
  | nil => rfl
  | cons w ws ih =>
    obtain ⟨hw, hws⟩ := List.forall_mem_cons.mp h
    cases ws with
    | nil => simp [words_of_isToken hw]
    | cons w' ws =>
      rw [List.intercalate_cons_cons, List.append_assoc, List.singleton_append,
        words_append_cons rfl, words_of_isToken hw, ih hws, List.singleton_append]

theorem words_collapseChars (t : List Char) : words (collapseChars t) = words t :=
  words_intercalate fun _ => isToken_of_mem_words

theorem collapseChars_collapseChars (t : List Char) :
    collapseChars (collapseChars t) = collapseChars t := by
  rw [collapseChars, words_collapseChars, collapseChars]

theorem collapse_collapse (s : String) : collapse (collapse s) = collapse s := by
  simp [collapse, collapseChars_collapseChars]

/-! ## Collapsed forms -/

/-- The text has no blank at its two ends. -/
structure IsTrimmed (t : List Char) : Prop where
  first : ∀ x ∈ t.head?, isBlank x = false
  last : ∀ x ∈ t.getLast?, isBlank x = false

/-- Every blank is a space, and no two of them stand side by side. -/
structure IsSpaced (t : List Char) : Prop where
  spaces : ∀ x ∈ t, isBlank x = true → x = ' '
  apart : t.IsChain fun x y => isBlank x = false ∨ isBlank y = false

theorem isTrimmed_nil : IsTrimmed [] := by
  constructor <;> simp

theorem isSpaced_nil : IsSpaced [] := by
  constructor <;> simp

theorem IsToken.isTrimmed (h : IsToken w) : IsTrimmed w := by
  constructor
  · intro x hx
    exact h.2 x (List.mem_of_mem_head? hx)
  · intro x hx
    exact h.2 x (List.mem_of_mem_getLast? hx)

theorem IsToken.isSpaced (h : IsToken w) : IsSpaced w := by
  constructor
  · intro x hx hb
    simp [h.2 x hx] at hb
  · exact (List.pairwise_of_forall_mem_list fun x hx _ _ => Or.inl (h.2 x hx)).isChain

theorem IsToken.append_cons (hw : IsToken w) (hne : v ≠ []) :
    IsTrimmed (w ++ ' ' :: v) ∧ IsSpaced (w ++ ' ' :: v) ↔ IsTrimmed v ∧ IsSpaced v := by
  obtain ⟨y, w, rfl⟩ := List.exists_cons_of_ne_nil hw.1
  have hlast : (y :: w ++ ' ' :: v).getLast? = v.getLast? := by
    rw [List.getLast?_append, List.getLast?_cons, List.getLast?_eq_some_getLast hne]
    rfl
  have hs : isBlank ' ' = true := rfl
  constructor
  · rintro ⟨ht, hsp⟩
    have hchain := hsp.apart
    simp only [List.isChain_append, List.isChain_cons, hs, Bool.true_eq_false, false_or] at hchain
    obtain ⟨-, ⟨hfirst, hv⟩, -⟩ := hchain
    exact ⟨⟨hfirst, fun x hx => ht.last x (hlast ▸ hx)⟩,
      ⟨fun x hx => hsp.spaces x (by simp [hx]), hv⟩⟩
  · rintro ⟨ht, hsp⟩
    refine ⟨⟨fun x hx => hw.2 x ?_, fun x hx => ht.last x (hlast ▸ hx)⟩, ?_, ?_⟩
    · simp at hx
      simp [hx]
    · intro x hx hb
      rcases List.mem_append.mp hx with hx | hx
      · simp [hw.2 x hx] at hb
      · rcases List.mem_cons.mp hx with rfl | hx
        · rfl
        · exact hsp.spaces x hx hb
    · rw [List.isChain_append]
      refine ⟨hw.isSpaced.apart, List.isChain_cons.mpr ⟨?_, hsp.apart⟩, ?_⟩
      · intro x hx
        exact Or.inr (ht.first x hx)
      · intro x hx _ _
        exact Or.inl (hw.isTrimmed.last x hx)

theorem intercalate_ne_nil (h : ∀ w ∈ ws, IsToken w) (hne : ws ≠ []) :
    [' '].intercalate ws ≠ [] := by
  intro he
  apply hne
  rw [← words_intercalate h, he]
  rfl

theorem isTrimmed_and_isSpaced_intercalate (h : ∀ w ∈ ws, IsToken w) :
    IsTrimmed ([' '].intercalate ws) ∧ IsSpaced ([' '].intercalate ws) := by
  induction ws with
  | nil => exact ⟨isTrimmed_nil, isSpaced_nil⟩
  | cons w ws ih =>
    obtain ⟨hw, hws⟩ := List.forall_mem_cons.mp h
    cases ws with
    | nil => simpa using ⟨hw.isTrimmed, hw.isSpaced⟩
    | cons w' ws =>
      rw [List.intercalate_cons_cons, List.append_assoc, List.singleton_append]
      exact (hw.append_cons (intercalate_ne_nil hws (List.cons_ne_nil w' ws))).mpr (ih hws)

theorem exists_eq_isToken (hne : t ≠ []) (h : ∀ x ∈ t.head?, isBlank x = false) :
    ∃ w, IsToken w ∧ (t = w ∨ ∃ x v, t = w ++ x :: v ∧ isBlank x = true) := by
  obtain ⟨y, t, rfl⟩ := List.exists_cons_of_ne_nil hne
  have hy : isBlank y = false := h y rfl
  induction t generalizing y with
  | nil => exact ⟨[y], ⟨hne, by simpa using hy⟩, Or.inl rfl⟩
  | cons z t ih =>
    by_cases hz : isBlank z = true
    · exact ⟨[y], ⟨by simp, by simpa using hy⟩, Or.inr ⟨z, t, rfl, hz⟩⟩
    · rw [Bool.not_eq_true] at hz
      obtain ⟨w, hw, he⟩ := ih z (by simp) (by simpa using hz) hz
      refine ⟨y :: w, ⟨by simp, List.forall_mem_cons.mpr ⟨hy, hw.2⟩⟩, ?_⟩
      rcases he with rfl | ⟨x, v, he, hx⟩
      · exact Or.inl rfl
      · exact Or.inr ⟨x, v, by rw [he, List.cons_append], hx⟩

/-- The texts that are their own collapsed form. -/
theorem collapseChars_eq_self_iff : collapseChars t = t ↔ IsTrimmed t ∧ IsSpaced t := by
  constructor
  · intro h
    rw [← h]
    exact isTrimmed_and_isSpaced_intercalate fun _ => isToken_of_mem_words
  · rintro ⟨ht, hs⟩
    -- By induction on the length, as a first word and its space come off.
    induction hn : t.length using Nat.strongRecOn generalizing t with
    | ind n ih =>
      by_cases hne : t = []
      · rw [hne]
        rfl
      · obtain ⟨w, hw, rfl | ⟨x, v, rfl, hx⟩⟩ := exists_eq_isToken hne ht.first
        · exact collapseChars_eq_self hw.2
        · obtain rfl : x = ' ' := hs.spaces x (by simp) hx
          have hv : v ≠ [] := by
            rintro rfl
            have := ht.last ' ' (by simp)
            cases this
          obtain ⟨ht', hs'⟩ := (hw.append_cons hv).mp ⟨ht, hs⟩
          have hc := ih v.length (by simp [← hn]; omega) ht' hs' rfl
          rw [collapseChars] at hc
          rw [collapseChars, words_append_cons hx, words_of_isToken hw, List.singleton_append]
          cases hws : words v with
          | nil =>
            rw [hws] at hc
            exact absurd hc.symm hv
          | cons w' ws =>
            rw [hws] at hc
            rw [List.intercalate_cons_cons, hc, List.append_assoc, List.singleton_append]

/-! ## Trimming -/

theorem exists_eq_trimChars (u : List Char) :
    ∃ lead trail, u = lead ++ (trimChars u ++ trail) ∧ Blank lead ∧ Blank trail := by
  refine ⟨u.takeWhile isBlank, ((u.dropWhile isBlank).reverse.takeWhile isBlank).reverse, ?_,
    blank_takeWhile u, fun x hx => blank_takeWhile _ x (List.mem_reverse.mp hx)⟩
  rw [trimChars, ← List.reverse_append, List.takeWhile_append_dropWhile, List.reverse_reverse,
    List.takeWhile_append_dropWhile]

theorem isTrimmed_trimChars (u : List Char) : IsTrimmed (trimChars u) := by
  constructor
  · intro x hx
    apply head?_dropWhile_isBlank u x
    have hp : trimChars u <+: u.dropWhile isBlank := by
      rw [trimChars, ← List.reverse_suffix, List.reverse_reverse]
      exact List.dropWhile_suffix isBlank
    obtain ⟨v, hv⟩ := hp
    rw [← hv, List.head?_append, Option.mem_def.mp hx]
    rfl
  · intro x hx
    apply head?_dropWhile_isBlank (u.dropWhile isBlank).reverse x
    rwa [trimChars, List.getLast?_reverse] at hx

theorem dropWhile_isBlank_eq_self (h : ∀ x ∈ t.head?, isBlank x = false) :
    t.dropWhile isBlank = t := by
  cases t with
  | nil => rfl
  | cons x t => rw [List.dropWhile_cons, h x rfl, if_neg Bool.false_ne_true]

theorem IsTrimmed.trimChars_eq (h : IsTrimmed t) : trimChars t = t := by
  have hlast : ∀ x ∈ t.reverse.head?, isBlank x = false := by
    rw [List.head?_reverse]
    exact h.last
  rw [trimChars, dropWhile_isBlank_eq_self h.first, dropWhile_isBlank_eq_self hlast,
    List.reverse_reverse]

theorem trim_trim (s : String) : trim (trim s) = trim s := by
  simp [trim, (isTrimmed_trimChars s.toList).trimChars_eq]

theorem length_pos_of_not_blank (h : ¬ Blank t) : 0 < t.length := by
  rw [List.length_pos_iff]
  rintro rfl
  exact h fun x hx => absurd hx List.not_mem_nil

theorem IsTrimmed.not_blank (h : IsTrimmed t) (hne : t ≠ []) : ¬ Blank t := by
  intro hb
  obtain ⟨x, u, rfl⟩ := List.exists_cons_of_ne_nil hne
  have := h.first x rfl
  rw [hb x List.mem_cons_self] at this
  cases this

end CodeOutline.Text
