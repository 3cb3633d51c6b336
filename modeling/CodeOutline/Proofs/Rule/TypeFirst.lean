import CodeOutline.Proofs.Rule.Declaration

/-! # Declarations with the type first

The built-in patterns of four languages read a declaration without a keyword: the result or a
modifier comes first. They start at no edge of a word, so what they refuse matters as much as what
they read.
-/

namespace CodeOutline.Rule.Builtin

open Regex

variable {P : Cursor → Captures → Prop} {k : Follow} {ks : Captures} {x : Char}
  {n a r v : List Char} {o : Nat} {b : Option Char}

/-! ## Results first -/

theorem refuses_result {s : CharSet} {rs : List Regex} (h : ∀ x ∈ v.head?, s.contains x = false) :
    Refuses ((concat (.group "ret" (.plus true (.set s)) :: rs)).reach? k) v := by
  intro o b ks
  rw [reach?_concat, reachAll?_cons, reach?_group]
  exact refuses_plus_set_of_head h o b ks

theorem reaches_c (hn : IsWord n) (hr : IsWord r) (ha : ')' ∉ a) :
    Reaches (Declares n a (· = r) v) (cRegex.reach? accept
      ⟨o, b, r ++ ' ' :: (n ++ '(' :: (a ++ ')' :: ' ' :: '\x7b' :: v))⟩ []) := by
  rw [cRegex, reach?_concat, reachAll?_cons, reach?_group]
  refine reaches_wordOf hr (by simp; decide) ?_
  refine reaches_someBlanks_space (hn.opens _) ?_
  refine reaches_name (names_wordOf hn) ?_
  apply reaches_opening
  refine reaches_arguments (delimits_untilParenthesis ha) ?_
  exact reaches_space_brace (reaches_some ⟨rfl, by simp, by simp, by simp⟩)

/-- A qualified name needs a colon, and a destructor a tilde: a name that is a word has neither. -/
theorem names_qualified (hn : IsWord n) :
    Names (concat [star (concat ([wordOf] ++ letters [':', ':'])), opt (.char '~'), wordOf]) n := by
  intro P k ks o b v h
  have hq : ∀ k, Refuses ((concat ([wordOf] ++ letters [':', ':'])).reach? k) (n ++ '(' :: v) := by
    intro k
    rw [reach?_concat]
    exact refuses_plus_set_char (by decide) (hn.not_mem (by decide)) (by decide)
  rw [reach?_concat, reachAll?_cons, reach?_star_of_refuses hq]
  refine reaches_opt_of_refuses (refuses_char (hn.head?_ne _ (by decide))) ?_
  exact reaches_wordOf hn (isNameChar_head_parenthesis v) h

theorem reaches_cpp (hn : IsWord n) (hr : IsWord r) (ha : ')' ∉ a) :
    Reaches (Declares n a (· = r) v) (cppRegex.reach? accept
      ⟨o, b, r ++ ' ' :: (n ++ '(' :: (a ++ ')' :: ' ' :: '\x7b' :: v))⟩ []) := by
  rw [cppRegex, reach?_concat, reachAll?_cons, reach?_group]
  refine reaches_wordOf hr (by simp; decide) ?_
  refine reaches_someBlanks_space (hn.opens _) ?_
  refine reaches_name (names_qualified hn) ?_
  apply reaches_opening
  refine reaches_arguments (delimits_untilParenthesis ha) ?_
  refine reaches_blanks_space (opens_cons rfl) ?_
  apply reaches_opt_of_refuses
  · rw [reach?_concat]
    exact refuses_char (by simp)
  · exact reaches_brace (reaches_some ⟨rfl, by simp, by simp, by simp⟩)

theorem reaches_dart (hn : IsIdentifier n) (hr : IsWord r) (ha : ')' ∉ a) :
    Reaches (Declares n a (· = r) v) (dartRegex.reach? accept
      ⟨o, b, r ++ ' ' :: (n ++ '(' :: (a ++ ')' :: ' ' :: '\x7b' :: v))⟩ []) := by
  rw [dartRegex, reach?_concat, reachAll?_cons, reach?_group]
  refine reaches_word hr (fun x => contains_of_isNameChar (by decide)) (by simp; decide) ?_
  refine reaches_someBlanks_space (hn.isWord.opens _) ?_
  refine reaches_name (names_identifier hn) ?_
  apply reaches_opening
  refine reaches_arguments (delimits_shortest ha) ?_
  refine reaches_blanks_space (opens_cons rfl) ?_
  apply reaches_opt_of_refuses
  · rw [reach?_concat]
    exact refuses_char (by simp)
  · exact reaches_brace (reaches_some ⟨rfl, by simp, by simp, by simp⟩)

/-! ## Modifiers first -/

/-- The words that may stand before a type. -/
inductive Modifier
  | isPublic | isProtected | isPrivate | isStatic
  deriving DecidableEq, Repr

def Modifier.text : Modifier → String
  | isPublic => "public"
  | isProtected => "protected"
  | isPrivate => "private"
  | isStatic => "static"

/-- A modifier or a blank. -/
def modifier : Regex :=
  choice [concat (letters ['p', 'u', 'b', 'l', 'i', 'c']),
    concat (letters ['p', 'r', 'o', 't', 'e', 'c', 't', 'e', 'd']),
    concat (letters ['p', 'r', 'i', 'v', 'a', 't', 'e']),
    concat (letters ['s', 't', 'a', 't', 'i', 'c']), blank]

theorem reaches_modifier (m : Modifier)
    (h : Reaches P (k ⟨o + m.text.toList.length, lastOf b m.text.toList, v⟩ ks)) :
    Reaches P (modifier.reach? k ⟨o, b, m.text.toList ++ v⟩ ks) := by
  have hm : modifier.reach? k ⟨o, b, m.text.toList ++ v⟩ ks =
      (k ⟨o + m.text.toList.length, lastOf b m.text.toList, v⟩ ks).or
        (blank.reach? k ⟨o, b, m.text.toList ++ v⟩ ks) := by
    cases m <;>
      simp [modifier, choice, reach?_concat, letters, Modifier.text, lastOf, Nat.add_assoc]
  rw [hm]
  exact reaches_or h

theorem reaches_modifier_blank (h : Reaches P (k ⟨o + 1, some ' ', v⟩ ks)) :
    Reaches P (modifier.reach? k ⟨o, b, ' ' :: v⟩ ks) := by
  have hm : modifier.reach? k ⟨o, b, ' ' :: v⟩ ks = k ⟨o + 1, some ' ', v⟩ ks := by
    simp [modifier, choice, reach?_concat, letters, blank, CharSet.contains_blank, Text.isBlank]
  rwa [hm]

/-- Without a modifier a blank starts a match, and a space has to come after it. -/
theorem refuses_java (hm : ∀ x ∈ v.head?, x ≠ 'p' ∧ x ≠ 's')
    (hv : ∀ x w, v = x :: w → Text.isBlank x = true → w.head? ≠ some ' ') :
    Refuses (javaRegex.reach? accept) v := by
  intro o b ks
  rw [javaRegex, reach?_concat]
  cases v with
  | nil => simp [choice, reach?_concat, letters, blank]
  | cons x w =>
    obtain ⟨hp, hs⟩ := hm x rfl
    simp only [reachAll?_cons, choice, reach?_alt, reach?_concat, letters, List.map_cons,
      List.map_nil, reach?_char_cons, if_neg hp, if_neg hs, Option.none_or, blank,
      reach?_set_cons, CharSet.contains_blank]
    split
    · rename_i hb
      refine refuses_plus_set_of_head (fun y hy => ?_) _ _ _
      rw [CharSet.contains_singleton, beq_eq_false_iff_ne]
      rintro rfl
      exact hv x w rfl hb hy
    · rfl

theorem contains_typeChar_of_isNameChar (h : isNameChar x = true) :
    typeChar.contains x = true := by
  have := code_of_isNameChar h
  rw [typeChar, CharSet.contains_union, CharSet.contains_word_of_ascii (by omega),
    ← nameChar, contains_nameChar, h, Bool.true_or]

theorem contains_typeChar_space : typeChar.contains ' ' = false := by
  rw [typeChar, CharSet.contains_union, CharSet.contains_word_of_ascii (by decide)]
  decide

theorem reaches_java_head {rs : List Regex} (hn : IsWord n) (hr : IsWord r) (ha : ')' ∉ a)
    (h : ∀ o b κ κ', κ.name = "name" → κ.text = n → κ'.name = "args" → κ'.text = a →
      Reaches P (reachAll? rs k ⟨o, b, v⟩ (κ' :: κ :: ks))) :
    Reaches P (reachAll? ([.plus true (.char ' '), .plus true (.set typeChar), someBlanks,
      .group "name" wordOf, blanks, openParenthesis, .group "args" untilParenthesis,
      closeParenthesis] ++ rs) k
        ⟨o, b, ' ' :: (r ++ ' ' :: (n ++ '(' :: (a ++ ')' :: v)))⟩ ks) := by
  refine reaches_plus_set (u := [' ']) (List.cons_ne_nil _ _) (by simp; decide) ?_ ?_
  · intro x hx
    rw [CharSet.contains_singleton, beq_eq_false_iff_ne]
    rintro rfl
    exact hr.head?_ne _ (by decide) hx
  refine reaches_word hr (fun x => contains_typeChar_of_isNameChar)
    (by simpa using contains_typeChar_space) ?_
  refine reaches_someBlanks_space (hn.opens _) ?_
  refine reaches_name (names_wordOf hn) ?_
  apply reaches_opening
  refine reaches_arguments (delimits_untilParenthesis ha) ?_
  exact h _ _ _ _ rfl (Capture.text_mk _ _ _ _ _) rfl (Capture.text_mk _ _ _ _ _)

theorem reaches_java_body (hn : IsWord n) (hr : IsWord r) (ha : ')' ∉ a) :
    Reaches (Declares n a (· = []) v) (reachAll? ([.plus true (.char ' '), .plus true (.set typeChar),
      someBlanks, .group "name" wordOf, blanks, openParenthesis, .group "args" untilParenthesis,
      closeParenthesis] ++ [blanks, opt (concat (letters ['t', 'h', 'r', 'o', 'w', 's'] ++
        [blank, shortest])), openBrace]) accept
          ⟨o, b, ' ' :: (r ++ ' ' :: (n ++ '(' :: (a ++ ')' :: ' ' :: '\x7b' :: v)))⟩ []) := by
  refine reaches_java_head hn hr ha fun o b κ κ' hκ hname hκ' harguments => ?_
  refine reaches_blanks_space (opens_cons rfl) ?_
  apply reaches_opt_of_refuses
  · rw [reach?_concat]
    exact refuses_letters (by simp)
  · rw [reachAll?_cons, openBrace, reach?_char_cons, if_pos rfl]
    exact reaches_some ⟨rfl, by simp [hκ, hκ', hname], by simp [hκ', harguments],
      by simp [hκ, hκ']⟩

theorem reaches_java (m : Modifier) (hn : IsWord n) (hr : IsWord r) (ha : ')' ∉ a) :
    Reaches (Declares n a (· = []) v) (javaRegex.reach? accept
      ⟨o, b, m.text.toList ++ ' ' ::
        (r ++ ' ' :: (n ++ '(' :: (a ++ ')' :: ' ' :: '\x7b' :: v)))⟩ []) := by
  rw [javaRegex, reach?_concat]
  exact reaches_modifier m (reaches_java_body hn hr ha)

/-- Two spaces at the start of a line are as good as a modifier. -/
theorem reaches_java_indented (hn : IsWord n) (hr : IsWord r) (ha : ')' ∉ a) :
    Reaches (Declares n a (· = []) v) (javaRegex.reach? accept
      ⟨o, b, ' ' :: ' ' :: (r ++ ' ' :: (n ++ '(' :: (a ++ ')' :: ' ' :: '\x7b' :: v)))⟩ []) := by
  rw [javaRegex, reach?_concat]
  exact reaches_modifier_blank (reaches_java_body hn hr ha)

end CodeOutline.Rule.Builtin
