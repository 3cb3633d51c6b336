import CodeOutline.Proofs.Text.Words

/-! # The normal form of a text

What the words of a text are is said without a program, by where the blanks stand. Collapsing keeps
them, and of all texts with these words it gives the only one that has no blanks but single spaces
inside. Blanks that part a text part its words, and so its collapsed form.
-/

namespace CodeOutline.Text

variable {x : Char} {t w : List Char} {ws as bs : List (List Char)} {r s u v : String}

/-! ## Words -/

/-- The words of a text: what stands between blanks, each as long as it can be. -/
inductive HasWords : List Char → List (List Char) → Prop
  | nil : HasWords [] []
  | blank {x : Char} {t : List Char} {ws : List (List Char)} : isBlank x = true →
      HasWords t ws → HasWords (x :: t) ws
  | word {w t : List Char} {ws : List (List Char)} : IsToken w →
      (∀ x ∈ t.head?, isBlank x = true) → HasWords t ws → HasWords (w ++ t) (w :: ws)

theorem words_cons_blank (hx : isBlank x = true) (t : List Char) : words (x :: t) = words t :=
  words_append_cons hx [] t

theorem words_append_of_isToken (hw : IsToken w) (ht : ∀ x ∈ t.head?, isBlank x = true) :
    words (w ++ t) = w :: words t := by
  cases t with
  | nil => rw [List.append_nil, words_of_isToken hw]; rfl
  | cons x t =>
    have hx : isBlank x = true := ht x rfl
    rw [words_append_cons hx, words_cons_blank hx, words_of_isToken hw, List.singleton_append]

theorem HasWords.words_eq (h : HasWords t ws) : words t = ws := by
  induction h with
  | nil => rfl
  | blank hx _ ih => rw [words_cons_blank hx, ih]
  | word hw ht _ ih => rw [words_append_of_isToken hw ht, ih]

theorem exists_eq_isToken_append (hne : t ≠ []) (h : ∀ x ∈ t.head?, isBlank x = false) :
    ∃ w rest, t = w ++ rest ∧ IsToken w ∧ ∀ x ∈ rest.head?, isBlank x = true := by
  obtain ⟨w, hw, he | ⟨x, rest, he, hx⟩⟩ := exists_eq_isToken hne h
  · exact ⟨w, [], by rw [he, List.append_nil], hw, by simp⟩
  · exact ⟨w, x :: rest, he, hw, by simpa using hx⟩

theorem hasWords_words (t : List Char) : HasWords t (words t) := by
  -- By induction on the length, as a blank or a whole word comes off.
  induction hn : t.length using Nat.strongRecOn generalizing t with
  | ind n ih =>
    cases t with
    | nil => exact .nil
    | cons x t =>
      cases hx : isBlank x with
      | true =>
        rw [words_cons_blank hx]
        exact .blank hx (ih t.length (by simp [← hn]) t rfl)
      | false =>
        obtain ⟨w, rest, he, hw, hr⟩ :=
          exists_eq_isToken_append (List.cons_ne_nil x t) (by simpa using hx)
        have hlen : rest.length < n := by
          have := List.length_pos_iff.mpr hw.1
          rw [← hn, he, List.length_append]
          omega
        rw [he, words_append_of_isToken hw hr]
        exact .word hw hr (ih rest.length hlen rest rfl)

theorem hasWords_iff : HasWords t ws ↔ words t = ws :=
  ⟨HasWords.words_eq, fun h => h ▸ hasWords_words t⟩

/-- Two texts have the same words in the same order. -/
def WordsAgree (s u : String) : Prop :=
  ∃ ws, HasWords s.toList ws ∧ HasWords u.toList ws

theorem wordsAgree_iff : WordsAgree s u ↔ words s.toList = words u.toList := by
  simp [WordsAgree, hasWords_iff, eq_comm]

/-! ## Collapsed forms -/

theorem toList_collapse (s : String) : (collapse s).toList = collapseChars s.toList := by
  rw [collapse, String.toList_ofList]

theorem words_collapse (s : String) : words (collapse s).toList = words s.toList := by
  rw [toList_collapse, words_collapseChars]

theorem isTrimmed_and_isSpaced_collapse (s : String) :
    IsTrimmed (collapse s).toList ∧ IsSpaced (collapse s).toList := by
  rw [toList_collapse]
  exact isTrimmed_and_isSpaced_intercalate fun _ => isToken_of_mem_words

theorem collapse_eq_self_iff : collapse s = s ↔ IsTrimmed s.toList ∧ IsSpaced s.toList := by
  rw [← String.toList_inj, toList_collapse, collapseChars_eq_self_iff]

theorem collapse_eq_collapse_iff : collapse s = collapse u ↔ WordsAgree s u := by
  rw [wordsAgree_iff]
  constructor
  · intro h
    rw [← words_collapse s, h, words_collapse]
  · intro h
    rw [collapse, collapse, collapseChars, collapseChars, h]

/-! ## Parted texts -/

theorem words_append_blank_append (hne : w ≠ []) (hw : Blank w) (t u : List Char) :
    words (t ++ (w ++ u)) = words t ++ words u := by
  obtain ⟨x, w, rfl⟩ := List.exists_cons_of_ne_nil hne
  have hx : isBlank x = true := hw x List.mem_cons_self
  have hw' : Blank w := fun y hy => hw y (List.mem_cons_of_mem x hy)
  rw [List.cons_append, words_append_cons hx, words_blank_append hw']

theorem intercalate_append (ha : as ≠ []) (hb : bs ≠ []) :
    [' '].intercalate (as ++ bs) = [' '].intercalate as ++ [' '] ++ [' '].intercalate bs := by
  induction as with
  | nil => exact absurd rfl ha
  | cons a as ih =>
    by_cases hne : as = []
    · rw [hne, List.singleton_append, List.intercalate_cons_of_ne_nil hb,
        List.intercalate_singleton]
    · rw [List.cons_append, List.intercalate_cons_of_ne_nil (by simp [hne]), ih hne,
        List.intercalate_cons_of_ne_nil hne]
      simp only [List.append_assoc]

theorem collapse_eq_empty_iff : collapse s = "" ↔ words s.toList = [] := by
  constructor
  · intro h
    rw [← words_collapse, h]
    rfl
  · intro h
    rw [collapse, collapseChars, h]
    rfl

theorem collapse_append_append (hne : r ≠ "") (hr : Blank r.toList) (s u : String) :
    collapse (s ++ r ++ u) =
      if collapse s = "" ∨ collapse u = "" then collapse s ++ collapse u
      else collapse s ++ " " ++ collapse u := by
  have hne' : r.toList ≠ [] := by simpa using hne
  have hws : words (s ++ r ++ u).toList = words s.toList ++ words u.toList := by
    rw [String.toList_append, String.toList_append, List.append_assoc,
      words_append_blank_append hne' hr]
  rw [← String.toList_inj, toList_collapse, collapseChars, hws]
  split
  · rename_i h
    rw [collapse_eq_empty_iff, collapse_eq_empty_iff] at h
    rw [String.toList_append, toList_collapse, toList_collapse, collapseChars, collapseChars]
    rcases h with h | h <;> simp [h, List.intercalate]
  · rename_i h
    rw [collapse_eq_empty_iff, collapse_eq_empty_iff, not_or] at h
    rw [intercalate_append h.1 h.2, String.toList_append, String.toList_append, toList_collapse,
      toList_collapse, collapseChars, collapseChars]
    rfl

/-! ## Normal forms -/

/-- A way to give every text its normal form: the only text with its words that has no blank at its
ends and no other blanks than single spaces. -/
structure Normalizes (f : String → String) : Prop where
  trimmed : ∀ s, IsTrimmed (f s).toList
  spaced : ∀ s, IsSpaced (f s).toList
  words : ∀ s, WordsAgree s (f s)
  unique : ∀ s u, IsTrimmed u.toList → IsSpaced u.toList → WordsAgree s u → u = f s
  fixed : ∀ s, f s = s ↔ IsTrimmed s.toList ∧ IsSpaced s.toList
  agree : ∀ s u, f s = f u ↔ WordsAgree s u
  /-- Blanks between two texts become one space where it has something on both sides. -/
  parted : ∀ s r u, r ≠ "" → Blank r.toList → f (s ++ r ++ u) =
    if f s = "" ∨ f u = "" then f s ++ f u else f s ++ " " ++ f u

theorem normalizes_collapse : Normalizes collapse where
  trimmed s := (isTrimmed_and_isSpaced_collapse s).1
  spaced s := (isTrimmed_and_isSpaced_collapse s).2
  words s := wordsAgree_iff.mpr (words_collapse s).symm
  unique s u ht hs hw := by
    rw [← collapse_eq_self_iff.mpr ⟨ht, hs⟩]
    exact (collapse_eq_collapse_iff.mpr hw).symm
  fixed _ := collapse_eq_self_iff
  agree _ _ := collapse_eq_collapse_iff
  parted s _ u hne hr := collapse_append_append hne hr s u

end CodeOutline.Text
