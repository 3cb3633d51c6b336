import CodeOutline.Proofs.Rule.Declaration

/-! # Declarations in three forms

The built-in pattern of two languages reads a function with a keyword, an arrow that is assigned to
a name, or a method. Each form captures under groups of its own, and the earlier forms have to
refuse what a later one is to read.
-/

namespace CodeOutline.Rule.Builtin

open Regex

/-- The alternatives of the pattern. -/
inductive ArrowForm
  | function | assignment | method
  deriving DecidableEq, Repr

namespace ArrowForm

@[simp] def nameGroup : ArrowForm → String
  | function => "fn_name"
  | assignment => "arrow_name"
  | method => "method_name"

@[simp] def argumentsGroup : ArrowForm → String
  | function => "fn_args"
  | assignment => "arrow_args"
  | method => "method_args"

/-- The form that a match has, by the names that are captured. -/
def ofCaptures (ks : Captures) : ArrowForm :=
  if (ks.find? "fn_name").isSome then function
  else if (ks.find? "arrow_name").isSome then assignment
  else method

/-- The result that a match of a form has captured. Methods have none. -/
@[simp] def result : ArrowForm → Captures → List Char
  | function, ks => captured ks "fn_ret"
  | assignment, ks => captured ks "arrow_ret"
  | method, _ => []

end ArrowForm

/-- A match of a declaration in one of the forms, before a text that is left over: the name and the
arguments are captured as they stand, and the result has the words of a text. -/
structure ArrowDeclares (f : ArrowForm) (n a r v : List Char) (d : Cursor) (ks : Captures) :
    Prop where
  rest : d.rest = v
  form : ArrowForm.ofCaptures ks = f
  name : captured ks f.nameGroup = n
  arguments : captured ks f.argumentsGroup = a
  result : SameWords r (f.result ks)

variable {f : ArrowForm} {ks : Captures} {c d : Cursor} {x : Char} {n a r u v res : List Char}
  {o : Nat} {b : Option Char}

/-! ## Signatures -/

theorem arrowSignature?_eq (c : Cursor) (stop : Nat) (ks : Captures) :
    Extraction.arrowSignature? ⟨c, stop, ks⟩ =
      let f := ArrowForm.ofCaptures ks
      let name := String.ofList (captured ks f.nameGroup)
      if Extraction.isControlKeyword name then none
      else Signature.ofTexts? name (String.ofList (captured ks f.argumentsGroup))
        (String.ofList (f.result ks)) := by
  have hg (name : String) : Extraction.hasGroup ⟨c, stop, ks⟩ name = (ks.find? name).isSome := rfl
  have ht (name : String) : Extraction.groupText ⟨c, stop, ks⟩ name =
      String.ofList (captured ks name) := rfl
  by_cases hf : (ks.find? "fn_name").isSome = true
  · simp only [Extraction.arrowSignature?, hg, ht, ArrowForm.ofCaptures, if_pos hf]
    rfl
  · by_cases hr : (ks.find? "arrow_name").isSome = true
    · simp only [Extraction.arrowSignature?, hg, ht, ArrowForm.ofCaptures, if_neg hf, if_pos hr]
      rfl
    · simp only [Extraction.arrowSignature?, hg, ht, ArrowForm.ofCaptures, if_neg hf, if_neg hr]
      rfl

theorem ArrowDeclares.arrowSignature?_eq (h : ArrowDeclares f n a r v d ks) (hn : IsWord n)
    (hk : String.ofList n ∉ Extraction.controlKeywords) :
    Extraction.arrowSignature? ⟨c, d.offset, ks⟩ =
      some ⟨String.ofList n, Text.collapse (String.ofList a), Text.collapse (String.ofList r)⟩ := by
  have hc : Extraction.isControlKeyword (String.ofList n) = false :=
    IsWord.isControlKeyword_eq (by rwa [String.toList_ofList]) hk
  rw [Builtin.arrowSignature?_eq]
  simp only [h.form, h.name, h.arguments, hc, if_neg Bool.false_ne_true, hn.ofTexts?_eq]
  rw [collapse_ofList (f.result ks), h.result, collapse_ofList r]

/-! ## Results -/

/-- The characters that a result of a function ends before. -/
def resultStops : List Char := ['\x7b', '\x7d', ';', '=', '(', ')']

/-- A result after a colon: not blank, and up to the first character that ends it. -/
structure IsResultText (r : List Char) : Prop where
  not_blank : ¬ Text.Blank r
  stops : ∀ x ∈ r, x ∉ resultStops

instance (r : List Char) : Decidable (IsResultText r) :=
  decidable_of_iff (¬ r.all Text.isBlank = true ∧ r.all (· ∉ resultStops) = true) <| by
    simp only [List.all_eq_true, decide_eq_true_eq]
    exact ⟨fun ⟨hb, hs⟩ => ⟨hb, hs⟩, fun ⟨hb, hs⟩ => ⟨hb, hs⟩⟩

/-- What is no such character is in the set that a result of a function is made of. -/
theorem contains_functionResult (h : x ∉ resultStops) :
    (CharSet.complement ⟨[(0x28, 0x29), (0x3B, 0x3B), (0x3D, 0x3D), (0x7B, 0x7B),
      (0x7D, 0x7D)]⟩).contains x = true := by
  have hc (y : Char) : x = y ↔ x.toNat = y.toNat := Char.toNat_inj.symm
  rw [CharSet.contains_complement (by simp)]
  simp only [resultStops, List.mem_cons, List.not_mem_nil, or_false, not_or, hc,
    Char.reduceToNat] at h
  simp [CharSet.contains]
  omega

theorem contains_assignmentResult (h : x ∉ resultStops) :
    (CharSet.complement ⟨[(0x3D, 0x3D)]⟩).contains x = true := by
  rw [CharSet.contains_complement_code, bne_iff_ne]
  intro hx
  obtain rfl : x = '=' := Char.toNat_inj.mp hx
  exact h (by decide)

theorem reaches_result_colon {P : Cursor → Captures → Prop} {k : Follow} {name : String}
    {s : CharSet} (hr : IsResultText r)
    (hs : ∀ y, y ∉ resultStops → s.contains y = true) (hx : x ∈ resultStops)
    (h : ∀ o b κ, κ.name = name → SameWords r κ.text → Reaches P (k ⟨o, b, v⟩ (κ :: ks))) :
    Reaches P (reachAll? [blanks, .char ':', blanks, .group name (.plus false (.set s))]
      (reachAll? [blanks, .char x] k) ⟨o, b, ':' :: ' ' :: (r ++ ' ' :: x :: v)⟩ ks) := by
  have hw : ∀ y ∈ ' ' :: (r ++ [' ']), y ∉ resultStops := by
    intro y hy
    simp only [List.mem_cons, List.mem_append, List.not_mem_nil, or_false] at hy
    rcases hy with rfl | hy | rfl
    · decide
    · exact hr.stops y hy
    · decide
  have hblank : ¬ Text.Blank (' ' :: (r ++ [' '])) :=
    fun hb => hr.not_blank fun y hy => hb y (by simp [hy])
  have hxb : resultStops.any Text.isBlank = false := by decide
  refine reaches_no_blanks (opens_cons rfl) ?_
  rw [reachAll?_cons, reach?_char_cons, if_pos rfl]
  refine reaches_result_blanks_char (v := v) (w := ' ' :: (r ++ [' ']))
    (fun u hu hne => stretches_lazyPlus (fun he => hblank (hne he))
      fun y hy => hs y (hw y (hu y hy)))
    (by simp) (Bool.eq_false_iff.mpr (List.any_eq_false.mp hxb x hx)) (fun hxw => hw x hxw hx)
    fun o b κ hκ ht => ?_
  exact h o b κ hκ (ht.trans (collapseChars_spaces r))

/-! ## Functions -/

theorem reaches_function (hb : Look.isWord true b = false) (hn : IsIdentifier n) (ha : ')' ∉ a)
    (hr : (res = [] ∧ r = [] ∧ u = ' ' :: '\x7b' :: v) ∨
      (res = ':' :: ' ' :: r ∧ IsResultText r ∧ u = v)) :
    Reaches (ArrowDeclares .function n a r u) (arrowRegex.reach? accept
      ⟨o, b, ['f', 'u', 'n', 'c', 't', 'i', 'o', 'n'] ++ ' ' :: (n ++ '(' :: (a ++ ')' ::
        (res ++ ' ' :: '\x7b' :: v)))⟩ []) := by
  rw [arrowRegex]
  refine reaches_alt ?_
  rw [reach?_concat]
  refine reaches_keyword hb (by decide) ?_
  refine reaches_someBlanks_space (hn.isWord.opens _) ?_
  refine reaches_name (names_identifier hn) ?_
  apply reaches_opening
  refine reaches_arguments (delimits_shortest ha) ?_
  rcases hr with ⟨rfl, rfl, rfl⟩ | ⟨rfl, hr, rfl⟩
  · apply reaches_opt_of_refuses
    · rw [reach?_concat]
      exact refuses_blanks_space (opens_cons rfl) (refuses_char (by simp)) (refuses_char (by simp))
    · exact reaches_some ⟨rfl, rfl, by simp, by simp, by simp⟩
  · apply reaches_opt
    rw [reach?_concat]
    simp only [List.cons_append]
    refine reaches_result_colon hr (fun y => contains_functionResult) (by decide)
      fun o b κ hκ ht => ?_
    exact reaches_some ⟨rfl, by simp [ArrowForm.ofCaptures, Captures.find?, hκ], by simp [hκ],
      by simp [hκ], by simpa [hκ] using ht⟩

/-! ## Assignments -/

theorem reaches_assignment_head {P : Cursor → Captures → Prop} {k : Follow}
    (hb : Look.isWord true b = false) (hn : IsIdentifier n)
    (h : ∀ o b κ, κ.name = "arrow_name" → κ.text = n → Reaches P (reachAll?
      [.group "arrow_args" shortest, closeParenthesis,
        opt (concat [blanks, .char ':', blanks,
          .group "arrow_ret" (.plus false (.set (CharSet.complement ⟨[(0x3D, 0x3D)]⟩)))]),
        blanks, .char '=', .char '>'] k ⟨o, b, v⟩ (κ :: ks))) :
    Reaches P (arrowRegex.reach? k
      ⟨o, b, ['c', 'o', 'n', 's', 't'] ++ ' ' :: (n ++ ' ' :: '=' :: ' ' :: '(' :: v)⟩ ks) := by
  rw [arrowRegex]
  refine reaches_alt_of_refuses ?_ (reaches_alt ?_)
  · rw [reach?_concat]
    exact refuses_keyword (by simp)
  rw [reach?_concat]
  refine reaches_edge hb (by decide) ?_
  refine reaches_alt ?_
  rw [reach?_concat]
  refine reaches_letters (w := ['c', 'o', 'n', 's', 't']) ?_
  refine reaches_someBlanks_space (hn.isWord.opens _) ?_
  rw [reachAll?_cons, reach?_group]
  refine reaches_identifier hn (by simp; decide) ?_
  refine reaches_blanks_space (opens_cons rfl) ?_
  rw [reachAll?_cons, reach?_char_cons, if_pos rfl]
  refine reaches_blanks_space (opens_cons rfl) ?_
  apply reaches_opt_of_refuses
  · rw [reach?_concat]
    exact refuses_letters (by simp)
  rw [reachAll?_cons, openParenthesis, reach?_char_cons, if_pos rfl]
  exact h _ _ _ rfl (Capture.text_mk _ _ _ _ _)

theorem reaches_assignment (hb : Look.isWord true b = false) (hn : IsIdentifier n) (ha : ')' ∉ a)
    (hr : (res = [] ∧ r = []) ∨ (res = ':' :: ' ' :: r ∧ IsResultText r)) :
    Reaches (ArrowDeclares .assignment n a r v) (arrowRegex.reach? accept
      ⟨o, b, ['c', 'o', 'n', 's', 't'] ++ ' ' :: (n ++ ' ' :: '=' :: ' ' :: '(' :: (a ++ ')' ::
        (res ++ ' ' :: '=' :: '>' :: v)))⟩ []) := by
  refine reaches_assignment_head hb hn fun o b κ hκ hname => ?_
  refine reaches_arguments (delimits_shortest ha) ?_
  rcases hr with ⟨rfl, rfl⟩ | ⟨rfl, hr⟩
  · apply reaches_opt_of_refuses
    · rw [reach?_concat]
      exact refuses_blanks_space (opens_cons rfl) (refuses_char (by simp)) (refuses_char (by simp))
    · refine reaches_blanks_space (opens_cons rfl) ?_
      refine reaches_letters (w := ['=', '>']) ?_
      exact reaches_some ⟨rfl, by simp [ArrowForm.ofCaptures, Captures.find?, hκ],
        by simp [hκ, hname], by simp, by simp [hκ]⟩
  · apply reaches_opt
    rw [reach?_concat]
    simp only [List.cons_append]
    refine reaches_result_colon hr (fun y => contains_assignmentResult) (by decide)
      fun o b κ' hκ' ht => ?_
    rw [reach?_char_cons, if_pos rfl]
    exact reaches_some ⟨rfl, by simp [ArrowForm.ofCaptures, Captures.find?, hκ, hκ'],
      by simp [hκ, hκ', hname], by simp [hκ'], by simpa [hκ'] using ht⟩

/-! ## Methods -/

/-- A name before a parenthesis is no keyword, whatever it starts with, so a method is left to the
last alternative. -/
theorem reaches_method (hn : IsIdentifier n) (ha : ')' ∉ a) :
    Reaches (ArrowDeclares .method n a [] v) (arrowRegex.reach? accept
      ⟨o, b, n ++ '(' :: (a ++ ')' :: ' ' :: '\x7b' :: v)⟩ []) := by
  have hw : ∀ x ∈ n, isNameChar x = true := hn.isWord.2
  rw [arrowRegex]
  refine reaches_alt_of_refuses ?_ (reaches_alt_of_refuses ?_ ?_)
  · rw [reach?_concat, reachAll?_append]
    exact refuses_look (refuses_letters_word (by decide) hw)
  · rw [reach?_concat]
    refine refuses_look (refuses_choice fun r hr => ?_)
    simp only [List.mem_cons, List.not_mem_nil, or_false] at hr
    rcases hr with rfl | rfl | rfl
    all_goals
      rw [reach?_concat]
      exact refuses_letters_word (by decide) hw
  · rw [choice_singleton, reach?_concat]
    refine reaches_name (names_identifier hn) ?_
    apply reaches_opening
    refine reaches_arguments (delimits_untilParenthesis ha) ?_
    exact reaches_space_brace (reaches_some ⟨rfl, rfl, by simp, by simp, by simp⟩)

/-! ## Between declarations -/

theorem refuses_arrow (h : ∀ x ∈ v.head?, isNameChar x = false) :
    Refuses (arrowRegex.reach? accept) v := by
  have hl (x : Char) (hx : isNameChar x = true) : v.head? ≠ some x := by
    intro hv
    rw [h x hv] at hx
    cases hx
  rw [arrowRegex]
  refine refuses_alt ?_ (refuses_alt ?_ ?_)
  · rw [reach?_concat]
    exact refuses_keyword (hl 'f' (by decide))
  · rw [reach?_concat]
    refine refuses_look (refuses_choice fun r hr => ?_)
    simp only [List.mem_cons, List.not_mem_nil, or_false] at hr
    rcases hr with rfl | rfl | rfl
    all_goals
      rw [reach?_concat]
      exact refuses_char (hl _ (by decide))
  · intro o b ks
    rw [choice_singleton, reach?_concat, reachAll?_cons, reach?_group, identifier, reach?_seq]
    refine refuses_set (fun x hx => ?_) o b ks
    rw [contains_nameStart, Bool.eq_false_iff]
    intro hs
    exact hl x (isNameChar_of_isNameStart hs) hx

end CodeOutline.Rule.Builtin
