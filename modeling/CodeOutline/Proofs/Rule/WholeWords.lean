import CodeOutline.Proofs.Regex.Runs
import CodeOutline.Proofs.Rule.Declaration
import CodeOutline.Proofs.Rule.Heading

/-! # Whole words

In the patterns of C and C++ nothing says that a type starts at the start of a word. It does all the
same, as a search comes to the start of a word before it comes to the rest of it, and as it goes on
after the brace of a match. So a control keyword is never taken for the type or for the name of a
declaration, and neither is the end of one.
-/

namespace CodeOutline

open Text (Piece)
open Regex

/-- What is reported of a declaration and its type. -/
def Heading.signature (h : Heading) : Signature :=
  ⟨String.ofList h.name, String.ofList (Text.collapseChars h.arguments), String.ofList h.type⟩

namespace Rule.Builtin

variable {u v n : List Char} {l : Language} {text : List Char}
  {m : Match} {h : Heading} {p : Piece} {s : Signature}

/-- What may stand before the last word of a qualified name. -/
def Qualifies (u : List Char) : Prop :=
  [':', ':'] <:+ u ∨ ['~'] <:+ u

theorem Qualifies.append (h : Qualifies v) (u : List Char) : Qualifies (u ++ v) :=
  h.imp (fun h => h.trans (List.suffix_append u v)) fun h => h.trans (List.suffix_append u v)

theorem Qualifies.getLast? (h : Qualifies u) : ∀ x ∈ u.getLast?, isNameChar x = false := by
  rcases h with ⟨v, rfl⟩ | ⟨v, rfl⟩
  · simp
    decide
  · simp
    decide

theorem IsQualified.exists_word (h : IsQualified n) :
    ∃ u w, n = u ++ w ∧ IsWord w ∧ (u = [] ∨ Qualifies u) := by
  induction h with
  | word h => exact ⟨[], _, rfl, h, Or.inl rfl⟩
  | destructor h => exact ⟨['~'], _, rfl, h, Or.inr (Or.inr (List.suffix_refl _))⟩
  | @inScope scope n hs _ ih =>
    obtain ⟨u, w, rfl, hw, hu⟩ := ih
    refine ⟨scope ++ ([':', ':'] ++ u), w, by simp, hw, Or.inr ?_⟩
    rcases hu with rfl | hu
    · exact Or.inl (by simp)
    · exact (hu.append [':', ':']).append scope

/-- Names end with a word, and before it may be something in C++ only. -/
theorem NameClass.exists_word (hl : l = .c ∨ l = .cpp) (h : NameClass l n) :
    ∃ u w, n = u ++ w ∧ IsWord w ∧ (u = [] ∨ l = .cpp ∧ Qualifies u) := by
  rcases hl with rfl | rfl
  · exact ⟨[], n, rfl, h, Or.inl rfl⟩
  · obtain ⟨u, w, hn, hw, hu⟩ := IsQualified.exists_word h
    exact ⟨u, w, hn, hw, hu.imp_right fun hu => ⟨rfl, hu⟩⟩

/-! ## Control keywords -/

/-- A control keyword in a text, with no character of a word before it. -/
structure IsKeyword (p : Piece) : Prop where
  keyword : String.ofList p.text ∈ Extraction.controlKeywords
  before : ∀ x ∈ p.before.getLast?, isNameChar x = false

theorem isNameChar_of_keyword : ∀ word ∈ Extraction.controlKeywords, ∀ x ∈ word.toList,
    isNameChar x = true := by
  have h : (Extraction.controlKeywords.all fun word => word.toList.all isNameChar) = true := by
    decide +kernel
  simpa only [List.all_eq_true] using h

theorem IsKeyword.chars (hp : IsKeyword p) : ∀ x ∈ p.text, isNameChar x = true := by
  have := isNameChar_of_keyword _ hp.keyword
  rwa [String.toList_ofList] at this

/-- A heading that is reported of a source text. Its type is a whole word, and neither the type nor
the name is a control keyword. The type does not end with a control keyword in the text, and the
name does so only in C++, where a scope or a tilde comes before the last word of the name. -/
structure Reported (l : Language) (t : List Char) (h : Heading) : Prop where
  text : h.text = t
  spaced : h.Spaced
  whole : h.Whole isNameChar
  type : Heading.Free h.type
  name : Heading.Free h.name
  type_stop : ∀ p : Piece, p.whole = t → IsKeyword p → p.stop ≠ h.typePiece.stop
  name_stop : ∀ p : Piece, p.whole = t → IsKeyword p → p.stop = h.namePiece.stop →
    l = .cpp ∧ Qualifies p.before

theorem stop_ne_typePiece (hh : h.Whole isNameChar) (hk : Heading.Free h.type)
    (hw : p.whole = h.text) (hp : IsKeyword p) : p.stop ≠ h.typePiece.stop := by
  intro he
  have heq : p.before ++ p.text = h.before ++ h.type :=
    Piece.before_append_text (hw.trans h.whole_typePiece.symm) he
  obtain ⟨-, ht⟩ := eq_of_run heq hp.before hp.chars hh.before hh.type
  exact hk (ht ▸ hp.keyword)

/-- A name after blanks that is no control keyword ends where one ends only if it is qualified. -/
theorem qualifies_of_stop_eq (hl : l = .c ∨ l = .cpp) (hs : h.Spaced) (hn : NameClass l h.name)
    (hk : Heading.Free h.name) (hw : p.whole = h.text) (hp : IsKeyword p)
    (he : p.stop = h.namePiece.stop) : l = .cpp ∧ Qualifies p.before := by
  obtain ⟨u, w, hname, hword, hu⟩ := hn.exists_word hl
  obtain ⟨v, y, hgap⟩ := (List.eq_nil_or_concat h.gap).resolve_left hs.gap_ne
  have hy : isNameChar y = false := isNameChar_of_isBlank (hs.gap y (by simp [hgap]))
  have heq : p.before ++ p.text = (h.before ++ (h.type ++ h.gap) ++ u) ++ w := by
    rw [List.append_assoc _ u w, ← hname]
    exact Piece.before_append_text (hw.trans h.whole_namePiece.symm) he
  -- What stands before the last word of the name is a blank, a scope or a tilde.
  have hlast : ∀ x ∈ (h.before ++ (h.type ++ h.gap) ++ u).getLast?, isNameChar x = false := by
    rcases hu with rfl | hu
    · simp [hgap, hy]
    · exact (hu.2.append _).getLast?
  obtain ⟨hb, ht⟩ := eq_of_run heq hp.before hp.chars hlast hword.2
  rcases hu with rfl | hu
  · exfalso
    apply hk
    rw [hname, List.nil_append, ← ht]
    exact hp.keyword
  · rw [hb]
    exact ⟨hu.1, hu.2.append _⟩

/-! ## Matches -/

theorem regex_eq_headed (hl : l = .c ∨ l = .cpp) : ∃ name tail,
    (builtin l).regex = concat (.group "ret" wordOf :: headed name (tail ++ [openBrace])) ∧
      name.groups = [] ∧ (concat (tail ++ [openBrace])).groups = [] ∧
        ∀ u, Spells name u → NameClass l u := by
  rcases hl with rfl | rfl
  · exact ⟨wordOf, [blanks], rfl, rfl, rfl, fun u => spells_wordOf⟩
  · exact ⟨concat [star (concat ([wordOf] ++ letters [':', ':'])), opt (.char '~'), wordOf],
      [blanks, opt (concat (letters ['c', 'o', 'n', 's', 't'])), blanks], rfl, rfl, rfl,
      fun u => spells_qualified⟩

theorem takesRuns (hl : l = .c ∨ l = .cpp) : TakesRuns (builtin l).regex isNameChar := by
  obtain ⟨name, tail, he, -⟩ := regex_eq_headed hl
  constructor
  · rcases hl with rfl | rfl <;> rfl
  · intro c x u hc hx hn
    rw [he] at hn ⊢
    exact preferred?_next_of_group_plus hc (by rwa [contains_nameChar]) hn
  · intro c d ks h x hx
    rw [he] at h
    have hd : d.before = some '\x7b' :=
      before_of_preferred? (.group "ret" wordOf :: headed name tail) h
    rw [hd, Option.mem_some_iff] at hx
    subst hx
    decide

/-- A match of one of these rules stands at a heading with a whole word for its type. -/
theorem exists_heading (hl : l = .c ∨ l = .cpp) (hm : m ∈ (builtin l).regex.allMatches text) :
    ∃ (h : Heading) (name : Regex), StandsAt text name m h ∧ h.start = m.start.offset ∧
      m.piece text "ret" = h.typePiece ∧ h.Whole isNameChar ∧ NameClass l h.name := by
  obtain ⟨name, tail, he, hn, ht, hq⟩ := regex_eq_headed hl
  have hbefore := before_of_mem_allMatches (takesRuns hl) hm
  obtain ⟨hc, d, hd, hstop⟩ := mem_onward_of_mem_allMatches hm
  obtain ⟨before, htext, hoff, hlast⟩ := Cursor.exists_eq_of_mem_onward_start hc
  rw [he] at hd
  obtain ⟨type, e, htype, hs, ho⟩ := exists_of_mem_outcomes_group_cons rfl (List.mem_of_head? hd)
  have hrest : text = before ++ (type ++ e.rest) := by rw [htext, htype.rest]
  have hplace : e.offset = before.length + type.length := by rw [htype.offset_eq, hoff]
  obtain ⟨h, hb, hty, hst, hret⟩ := exists_standsAt name hn ht hrest hplace hstop ho
  obtain ⟨hne, hw⟩ := spells_wordOf hs
  have hcapture : m.captures.find? "ret" = some ⟨"ret", m.start, e.offset⟩ := hret.trans rfl
  refine ⟨h, name, hst, ?_, ?_, ?_, hq _ hst.spells⟩
  · rw [Heading.start, hb, hoff]
  · apply piece_eq hcapture (h.whole_typePiece.trans hst.text) _
      ((htype.text_eq _).trans hty.symm)
    · simp [Heading.typePiece, Piece.stop, hb, hty, hplace]
    · simp [Heading.typePiece, Piece.start, hb, hoff]
  · apply hst.spaced.whole fun x => isNameChar_of_isBlank
    · rwa [hty]
    · rwa [hty]
    · rwa [hb, ← hlast]

theorem eq_signature_of_standsAt {name : Regex} (hst : StandsAt text name m h)
    (hret : m.piece text "ret" = h.typePiece) (hh : h.Whole isNameChar) (hn : NameClass l h.name)
    (hs : Extraction.returnTypeFirstSignature? m = some s) :
    h.signature = s ∧ Heading.Free h.type ∧ Heading.Free h.name := by
  have hword : IsWord h.type := ⟨hh.type_ne, hh.type⟩
  have htrim : Text.trim (String.ofList h.name) = String.ofList h.name := by
    rw [Text.trim, String.toList_ofList, Text.trimChars_eq_self hn.isBlank_eq]
  simp only [Extraction.returnTypeFirstSignature?, groupText_of_piece hret,
    groupText_of_piece hst.name, groupText_of_piece hst.arguments, Heading.typePiece,
    Heading.namePiece, Heading.argumentsPiece] at hs
  split at hs
  · cases hs
  · rename_i hk
    simp only [Extraction.isControlKeyword, hword.trim_eq, htrim, Bool.or_eq_true,
      List.contains_iff_mem, not_or] at hk
    obtain ⟨-, rfl⟩ := Signature.ofTexts?_eq_some_iff.mp hs
    refine ⟨?_, hk.1.2, hk.2⟩
    rw [Heading.signature, htrim, collapse_ofList, IsWord.collapse_eq (by simpa using hword)]

/-- What the rules of C and C++ find in a source text are headings, one after the other, each with
a whole word for its type. No control keyword is reported, and no part of one. -/
theorem extract_wholeWords (hl : l = .c ∨ l = .cpp) (content : String)
    (h : '\x00' ∉ content.toList) :
    ∃ headings : List Heading,
      (builtin l).extract content = .ok (headings.map Heading.signature) ∧
      (∀ g ∈ headings, Reported l content.toList g) ∧
      headings.Pairwise fun g g' => g.stop ≤ g'.start := by
  have hf : (builtin l).family = .returnTypeFirst := by
    rcases hl with rfl | rfl <;> rfl
  obtain ⟨headings, hmap, hgs, hpair⟩ := exists_map_eq_filterMap
    (Extraction.signature? (builtin l).family) Heading.signature
    (fun m g => Reported l content.toList g ∧ g.start = m.start.offset ∧ g.stop ≤ m.stop)
    (pairwise_allMatches (builtin l).regex content.toList) (by
      intro m hm s hs
      obtain ⟨g, name, hst, hstart, hret, hh, hn⟩ := exists_heading hl hm
      rw [hf] at hs
      obtain ⟨he, ht, hk⟩ := eq_signature_of_standsAt hst hret hh hn hs
      refine ⟨g, he, ⟨hst.text, hst.spaced, hh, ht, hk, ?_, ?_⟩, hstart, hst.stop⟩
      · intro p hp
        exact stop_ne_typePiece hh ht (hp.trans hst.text.symm)
      · intro p hp
        exact qualifies_of_stop_eq hl hst.spaced hn hk (hp.trans hst.text.symm))
  refine ⟨headings, ?_, ?_, ?_⟩
  · rw [Rule.extract_eq_ok h, hmap, Rule.signatures]
  · intro g hg
    obtain ⟨m, -, hr, -⟩ := hgs g hg
    exact hr
  · apply hpair.imp
    rintro g g' ⟨m, m', hmm, ⟨-, -, hstop⟩, -, hstart, -⟩
    exact hstop.trans (hmm.trans (Nat.le_of_eq hstart.symm))

theorem extract_wholeWords_cpp :
    '\x00' ∉ "int A::f(int x) \x7b\n  if (x) \x7b \x7d else if (y) \x7b \x7d\n\x7d\n".toList ∧
      (builtin .cpp).extract
          "int A::f(int x) \x7b\n  if (x) \x7b \x7d else if (y) \x7b \x7d\n\x7d\n" =
        .ok [⟨"A::f", "int x", "int"⟩] ∧
      ∃ g, Reported .cpp
        "int A::f(int x) \x7b\n  if (x) \x7b \x7d else if (y) \x7b \x7d\n\x7d\n".toList g ∧
          g.signature = ⟨"A::f", "int x", "int"⟩ := by
  have hn : '\x00' ∉
      "int A::f(int x) \x7b\n  if (x) \x7b \x7d else if (y) \x7b \x7d\n\x7d\n".toList := by
    decide
  have he : (builtin .cpp).extract
      "int A::f(int x) \x7b\n  if (x) \x7b \x7d else if (y) \x7b \x7d\n\x7d\n" =
        .ok [⟨"A::f", "int x", "int"⟩] := by decide +kernel
  obtain ⟨headings, hs, hr, -⟩ := extract_wholeWords (Or.inr rfl) _ hn
  rw [he, Except.ok.injEq] at hs
  obtain ⟨g, hg, hsig⟩ := List.mem_map.mp (hs ▸ List.mem_singleton_self _)
  exact ⟨hn, he, g, hr g hg, hsig⟩

end Rule.Builtin

end CodeOutline
