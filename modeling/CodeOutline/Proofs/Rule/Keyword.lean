import CodeOutline.Proofs.Rule.Declaration

/-! # Declarations with a keyword

The built-in patterns of six languages read a declaration that starts with a keyword: the name, the
arguments up to the first closing parenthesis, and a result up to where the body starts.
-/

namespace CodeOutline.Rule.Builtin

open Regex

variable {P : Cursor → Captures → Prop} {k : Follow} {ks : Captures} {x : Char}
  {n a r v w res : List Char} {o : Nat} {b : Option Char}

/-! ## Results of any text -/

/-- A result is read up to the character after it, without the blanks before it. -/
theorem reaches_result_char {t : List Char} (ht : t = w ++ x :: v) (hx : Text.isBlank x = false)
    (hw : x ∉ w) (h : ∀ o b κ, κ.name = "ret" → Text.collapseChars κ.text = Text.collapseChars w →
      Reaches P (k ⟨o, b, v⟩ (κ :: ks))) :
    Reaches P (reachAll? [blanks, .group "ret" shortest] ((Regex.char x).reach? k)
      ⟨o, b, t⟩ ks) := by
  subst ht
  obtain ⟨lead, u, rfl, hl, hu⟩ := Text.exists_eq_blank_append w
  have hop : Opens (u ++ x :: v) := by
    cases u with
    | nil => exact opens_cons hx
    | cons y u => exact opens_cons (hu y rfl)
  rw [List.append_assoc]
  refine reaches_blanks hl hop ?_
  rw [reachAll?_cons, reach?_group]
  refine reaches_shortest_char (fun hxu => hw (List.mem_append_right lead hxu)) ?_
  rw [reach?_char_cons, if_pos rfl]
  refine h _ _ _ rfl ?_
  rw [Capture.text_mk, Text.collapseChars_blank_append hl]

theorem reaches_python (hb : Look.isWord true b = false) (hn : IsIdentifier n) (ha : ')' ∉ a)
    (hr : (res = [] ∧ r = []) ∨ (res = ' ' :: '-' :: '>' :: ' ' :: r ∧ ':' ∉ r)) :
    Reaches (Declares n a (SameWords r) v) (pythonRegex.reach? accept
      ⟨o, b, ['d', 'e', 'f'] ++ ' ' :: (n ++ '(' :: (a ++ ')' :: (res ++ ':' :: v)))⟩ []) := by
  rw [pythonRegex, reach?_concat]
  refine reaches_keyword hb (by decide) ?_
  refine reaches_someBlanks_space (hn.isWord.opens _) ?_
  refine reaches_name (names_identifier hn) ?_
  apply reaches_opening
  refine reaches_arguments (delimits_shortest ha) ?_
  rcases hr with ⟨rfl, rfl⟩ | ⟨rfl, hr⟩
  · apply reaches_opt_of_refuses
    · rw [reach?_concat]
      exact refuses_no_blanks (opens_cons rfl) (refuses_letters (by simp))
    · rw [List.nil_append, reachAll?_cons, reach?_char_cons, if_pos rfl]
      exact reaches_some ⟨rfl, by simp, by simp, by simp⟩
  · apply reaches_opt
    rw [reach?_concat]
    refine reaches_blanks_space (opens_cons rfl) ?_
    refine reaches_letters (w := ['-', '>']) ?_
    refine reaches_result_char (w := ' ' :: r) rfl rfl (by simpa using hr) fun o b κ hκ ht => ?_
    refine reaches_some ⟨rfl, by simp [hκ], by simp [hκ], ?_⟩
    simpa [hκ] using ht.trans (Text.collapseChars_blank_append blank_space r)

theorem reaches_rust_head (hb : Look.isWord true b = false) (hn : IsIdentifier n)
    (h : ∀ o b κ, κ.name = "name" → κ.text = n → Reaches P (reachAll? [.group "args" shortest,
      closeParenthesis,
      opt (concat ([blanks] ++ letters ['-', '>'] ++ [blanks, .group "ret" shortest])),
      blanks, openBrace] k ⟨o, b, v⟩ (κ :: ks))) :
    Reaches P (rustRegex.reach? k ⟨o, b, ['f', 'n'] ++ ' ' :: (n ++ '(' :: v)⟩ ks) := by
  rw [rustRegex, reach?_concat]
  refine reaches_keyword hb (by decide) ?_
  refine reaches_someBlanks_space (hn.isWord.opens _) ?_
  refine reaches_name (names_identifier hn) ?_
  refine reaches_no_blanks (opens_cons rfl) ?_
  apply reaches_opt_of_refuses
  · rw [reach?_concat]
    exact refuses_char (by simp)
  apply reaches_opening
  exact h _ _ _ rfl (Capture.text_mk _ _ _ _ _)

theorem reaches_rust (hb : Look.isWord true b = false) (hn : IsIdentifier n) (ha : ')' ∉ a)
    (hr : (res = [] ∧ r = []) ∨ (res = ' ' :: '-' :: '>' :: ' ' :: r ∧ '\x7b' ∉ r)) :
    Reaches (Declares n a (SameWords r) v) (rustRegex.reach? accept
      ⟨o, b, ['f', 'n'] ++ ' ' :: (n ++ '(' :: (a ++ ')' :: (res ++ ' ' :: '\x7b' :: v)))⟩ []) := by
  refine reaches_rust_head hb hn fun o b κ hκ hname => ?_
  refine reaches_arguments (delimits_shortest ha) ?_
  rcases hr with ⟨rfl, rfl⟩ | ⟨rfl, hr⟩
  · apply reaches_opt_of_refuses
    · rw [reach?_concat]
      exact refuses_blanks_space (opens_cons rfl) (refuses_letters (by simp))
        (refuses_letters (by simp))
    · exact reaches_space_brace (reaches_some ⟨rfl, by simp [hκ, hname], by simp, by simp [hκ]⟩)
  · apply reaches_opt
    rw [reach?_concat]
    refine reaches_blanks_space (opens_cons rfl) ?_
    refine reaches_letters (w := ['-', '>']) ?_
    refine reaches_result_blanks_char (v := v) (w := ' ' :: (r ++ [' ']))
      (fun u _ _ => stretches_shortest u) (by simp) rfl (by simpa using hr)
      fun o b κ' hκ' ht => ?_
    refine reaches_some ⟨rfl, by simp [hκ', hκ, hname], by simp [hκ'], ?_⟩
    simpa [hκ'] using ht.trans (collapseChars_spaces r)

theorem reaches_go (hb : Look.isWord true b = false) (hn : IsIdentifier n) (ha : ')' ∉ a)
    (hr : (res = [] ∧ r = []) ∨ (res = ' ' :: r ∧ '\x7b' ∉ r)) :
    Reaches (Declares n a (SameWords r) v) (goRegex.reach? accept
      ⟨o, b, ['f', 'u', 'n', 'c'] ++ ' ' :: (n ++ '(' :: (a ++ ')' :: (res ++ ' ' :: '\x7b' :: v)))⟩
      []) := by
  rw [goRegex, reach?_concat]
  refine reaches_keyword hb (by decide) ?_
  refine reaches_someBlanks_space (hn.isWord.opens _) ?_
  apply reaches_opt_of_refuses
  · rw [reach?_concat]
    exact refuses_char (hn.isWord.head?_ne _ (by decide))
  refine reaches_name (names_identifier hn) ?_
  apply reaches_opening
  refine reaches_arguments (delimits_shortest ha) ?_
  rcases hr with ⟨rfl, rfl⟩ | ⟨rfl, hr⟩
  · refine reaches_result_char (w := [' ']) rfl rfl (by simp) fun o b κ hκ ht => ?_
    refine reaches_some ⟨rfl, by simp [hκ], by simp [hκ], ?_⟩
    simpa [hκ] using ht.trans (Text.collapseChars_append_blank blank_space [])
  · refine reaches_result_char (v := v) (w := ' ' :: (r ++ [' '])) (by simp) rfl (by simpa using hr)
      fun o b κ hκ ht => ?_
    refine reaches_some ⟨rfl, by simp [hκ], by simp [hκ], ?_⟩
    simpa [hκ] using ht.trans (collapseChars_spaces r)

/-! ## Results of one word -/

theorem refuses_effects (hx : Text.isBlank x = false) (hw : x ∉ ['a', 't', 'r']) (k : Follow) :
    Refuses ((concat [someBlanks, choice [concat (letters ['a', 's', 'y', 'n', 'c']),
      concat (letters ['t', 'h', 'r', 'o', 'w', 's']),
      concat (letters ['r', 'e', 't', 'h', 'r', 'o', 'w', 's'])]]).reach? k) (' ' :: x :: v) := by
  rw [reach?_concat]
  refine refuses_someBlanks_space (opens_cons hx) fun o b ks => ?_
  simp only [List.mem_cons, List.not_mem_nil, or_false, not_or] at hw
  simp [choice, reach?_concat, letters, hw]

theorem reaches_swift (hb : Look.isWord true b = false) (hn : IsWord n) (ha : ')' ∉ a)
    (hr : (res = [] ∧ r = []) ∨ (res = ' ' :: '-' :: '>' :: ' ' :: r ∧ IsWord r)) :
    Reaches (Declares n a (SameWords r) v) (swiftRegex.reach? accept
      ⟨o, b, ['f', 'u', 'n', 'c'] ++ ' ' :: (n ++ '(' :: (a ++ ')' :: (res ++ ' ' :: '\x7b' :: v)))⟩
      []) := by
  rw [swiftRegex, reach?_concat]
  refine reaches_keyword hb (by decide) ?_
  refine reaches_someBlanks_space (hn.opens _) ?_
  refine reaches_name (names_wordOf hn) ?_
  apply reaches_opening
  refine reaches_arguments (delimits_untilParenthesis ha) ?_
  rcases hr with ⟨rfl, rfl⟩ | ⟨rfl, hr⟩
  · rw [reachAll?_cons, List.nil_append, reach?_star_of_refuses (refuses_effects rfl (by decide))]
    apply reaches_opt_of_refuses
    · rw [reach?_concat]
      exact refuses_blanks_space (opens_cons rfl) (refuses_letters (by simp))
        (refuses_letters (by simp))
    · exact reaches_space_brace (reaches_some ⟨rfl, by simp, by simp, by simp⟩)
  · simp only [List.cons_append]
    rw [reachAll?_cons, reach?_star_of_refuses (refuses_effects rfl (by decide))]
    apply reaches_opt
    rw [reach?_concat]
    refine reaches_blanks_space (opens_cons rfl) ?_
    refine reaches_letters (w := ['-', '>']) ?_
    refine reaches_blanks_space (hr.opens _) ?_
    rw [reachAll?_cons, reach?_group]
    refine reaches_word hr (fun x => contains_of_isNameChar (by decide)) (by simp; decide) ?_
    exact reaches_space_brace (reaches_some ⟨rfl, by simp, by simp, by simp⟩)

theorem reaches_kotlin (hb : Look.isWord true b = false) (hn : IsWord n) (ha : ')' ∉ a)
    (hr : (res = [] ∧ r = []) ∨ (res = ':' :: ' ' :: r ∧ IsWord r)) :
    Reaches (Declares n a (SameWords r) v) (kotlinRegex.reach? accept
      ⟨o, b, ['f', 'u', 'n'] ++ ' ' :: (n ++ '(' :: (a ++ ')' :: (res ++ ' ' :: '\x7b' :: v)))⟩
      []) := by
  rw [kotlinRegex, reach?_concat]
  refine reaches_keyword hb (by decide) ?_
  refine reaches_someBlanks_space (hn.opens _) ?_
  apply reaches_opt_of_refuses
  · rw [reach?_concat]
    exact refuses_char (hn.head?_ne _ (by decide))
  apply reaches_opt_of_refuses
  · rw [reach?_concat]
    exact refuses_plus_set_char (by decide) (hn.not_mem (by decide)) (by decide)
  refine reaches_name (names_wordOf hn) ?_
  apply reaches_opening
  refine reaches_arguments (delimits_untilParenthesis ha) ?_
  rcases hr with ⟨rfl, rfl⟩ | ⟨rfl, hr⟩
  · apply reaches_opt_of_refuses
    · rw [reach?_concat]
      exact refuses_blanks_space (opens_cons rfl) (refuses_char (by simp)) (refuses_char (by simp))
    · exact reaches_space_brace (reaches_some ⟨rfl, by simp, by simp, by simp⟩)
  · apply reaches_opt
    rw [reach?_concat]
    refine reaches_no_blanks (opens_cons rfl) ?_
    rw [reachAll?_cons, List.cons_append, reach?_char_cons, if_pos rfl]
    refine reaches_blanks_space (hr.opens _) ?_
    rw [reachAll?_cons, reach?_group]
    refine reaches_word hr (fun x => contains_of_isNameChar (by decide)) (by simp; decide) ?_
    exact reaches_space_brace (reaches_some ⟨rfl, by simp, by simp, by simp⟩)

theorem reaches_php (hb : Look.isWord true b = false) (hn : IsWord n) (ha : ')' ∉ a)
    (hr : (res = [] ∧ r = []) ∨ (res = ':' :: ' ' :: r ∧ IsWord r)) :
    Reaches (Declares n a (SameWords r) v) (phpRegex.reach? accept
      ⟨o, b, ['f', 'u', 'n', 'c', 't', 'i', 'o', 'n'] ++ ' ' :: (n ++ '(' :: (a ++ ')' ::
        (res ++ ' ' :: '\x7b' :: v)))⟩ []) := by
  rw [phpRegex, reach?_concat]
  refine reaches_keyword hb (by decide) ?_
  refine reaches_someBlanks_space (hn.opens _) ?_
  refine reaches_name (names_wordOf hn) ?_
  apply reaches_opening
  refine reaches_arguments (delimits_untilParenthesis ha) ?_
  rcases hr with ⟨rfl, rfl⟩ | ⟨rfl, hr⟩
  · refine reaches_blanks_space (opens_cons rfl) ?_
    apply reaches_opt_of_refuses
    · rw [reach?_concat]
      exact refuses_char (by simp)
    · exact reaches_brace (reaches_some ⟨rfl, by simp, by simp, by simp⟩)
  · refine reaches_no_blanks (opens_cons rfl) ?_
    apply reaches_opt
    rw [reach?_concat, reachAll?_cons, List.cons_append, reach?_char_cons, if_pos rfl]
    refine reaches_blanks_space (hr.opens _) ?_
    rw [reachAll?_cons, reach?_group, reach?_seq]
    refine reaches_opt_of_refuses (refuses_char (hr.head?_ne _ (by decide))) ?_
    refine reaches_word hr (fun x => contains_of_isNameChar (by decide)) (by simp; decide) ?_
    exact reaches_space_brace (reaches_some ⟨rfl, by simp, by simp, by simp⟩)

end CodeOutline.Rule.Builtin
