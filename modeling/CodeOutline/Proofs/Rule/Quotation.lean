import CodeOutline.Proofs.Regex.Captures
import CodeOutline.Proofs.Rule.Boundary
import CodeOutline.Proofs.Rule.Reading

/-! # Quotations

The signatures that a rule finds quote the source text, and no part of the text is quoted twice. The
names of any rule stand in the text one after the other. Where no group of a pattern is inside of
another one, as in the built-in rules, this holds of the arguments and the results as well.
-/

namespace CodeOutline

open Regex Extraction
open Text (Piece)

/-- The pieces of a source text that a signature is read from. A result may be read from none. -/
structure Quotation where
  name : Piece
  arguments : Piece
  result : Option Piece

namespace Quotation

/-- The pieces that are quoted. -/
def pieces (q : Quotation) : List Piece := q.name :: q.arguments :: q.result.toList

/-- The signature that is read from what is quoted. -/
def signature? (q : Quotation) : Option Signature :=
  Signature.ofTexts? (String.ofList q.name.text) (String.ofList q.arguments.text)
    (String.ofList (q.result.elim [] Piece.text))

/-- What is quoted are captures of a match: one for the name, one for the arguments, and one for the
result, if any. -/
structure Of (m : Match) (text : List Char) (q : Quotation) : Prop where
  name : ∃ group ∈ nameGroups, q.name = m.piece text group
  arguments : ∃ group ∈ argumentsGroups, q.arguments = m.piece text group
  result : ∀ p ∈ q.result, ∃ group ∈ resultGroups, p = m.piece text group

variable {q : Quotation} {family : Family} {rule : Rule} {m : Match} {text : List Char}
  {s : Signature} {group : String} {p : Piece} {ps : List Piece} {l : Language}

theorem ofList_text_piece (m : Match) (text : List Char) (group : String) :
    String.ofList (m.piece text group).text = groupText m group := by
  rw [Match.text_piece, groupText]

theorem exists_of_signature? (text : List Char)
    (h : Extraction.signature? family m = some s) :
    ∃ q : Quotation, q.signature? = some s ∧ q.Of m text := by
  obtain ⟨n, a, r, ⟨gn, hgn, rfl⟩, ⟨ga, hga, rfl⟩, hr, -, hs⟩ := exists_readsFrom h
  rcases hr with rfl | ⟨gr, hgr, rfl⟩
  · refine ⟨⟨m.piece text gn, m.piece text ga, none⟩, ?_, ⟨gn, hgn, rfl⟩, ⟨ga, hga, rfl⟩, by simp⟩
    simpa [signature?, ofList_text_piece] using hs
  · refine ⟨⟨m.piece text gn, m.piece text ga, some (m.piece text gr)⟩, ?_, ⟨gn, hgn, rfl⟩,
      ⟨ga, hga, rfl⟩, by simpa using ⟨gr, hgr, rfl⟩⟩
    simpa [signature?, ofList_text_piece] using hs

theorem Of.holds (h : q.Of m text) (hm : m ∈ rule.regex.allMatches text) :
    ∀ p ∈ q.pieces, m.Holds text p := by
  intro p hp
  simp only [pieces, List.mem_cons, Option.mem_toList] at hp
  rcases hp with rfl | rfl | hp
  · obtain ⟨group, -, he⟩ := h.name
    exact he ▸ holds_piece hm group
  · obtain ⟨group, -, he⟩ := h.arguments
    exact he ▸ holds_piece hm group
  · obtain ⟨group, -, rfl⟩ := h.result p hp
    exact holds_piece hm group

/-- The pieces of a quotation are apart, as they are captured by different groups. -/
theorem Of.pairwise (h : q.Of m text) (hf : rule.regex.flat = true)
    (hm : m ∈ rule.regex.allMatches text) : q.pieces.Pairwise Piece.Apart := by
  obtain ⟨gn, hgn, hn⟩ := h.name
  obtain ⟨ga, hga, ha⟩ := h.arguments
  have hna : gn ≠ ga := by
    have : ∀ g ∈ nameGroups, ∀ g' ∈ argumentsGroups, g ≠ g' := by decide
    exact this gn hgn ga hga
  simp only [pieces, List.pairwise_cons, List.mem_cons, Option.mem_toList]
  refine ⟨?_, ?_, by cases q.result <;> simp⟩
  · rintro p (rfl | hp)
    · rw [hn, ha]
      exact apart_piece hf hm hna
    · obtain ⟨gr, hgr, rfl⟩ := h.result p hp
      have : ∀ g ∈ nameGroups, ∀ g' ∈ resultGroups, g ≠ g' := by decide
      rw [hn]
      exact apart_piece hf hm (this gn hgn gr hgr)
  · intro p hp
    obtain ⟨gr, hgr, rfl⟩ := h.result p hp
    have : ∀ g ∈ argumentsGroups, ∀ g' ∈ resultGroups, g ≠ g' := by decide
    rw [ha]
    exact apart_piece hf hm (this ga hga gr hgr)

theorem exists_name_of_signature? (hm : m ∈ rule.regex.allMatches text)
    (h : Extraction.signature? rule.family m = some s) :
    ∃ p : Piece, String.ofList p.text = s.name ∧ m.Holds text p ∧ ¬ Text.Blank p.text := by
  obtain ⟨q, hs, hq⟩ := exists_of_signature? text h
  obtain ⟨hne, rfl⟩ := Signature.ofTexts?_eq_some_iff.mp hs
  obtain ⟨p, hw, ht, hstart, hstop⟩ := q.name.exists_trim
  have hn := hq.holds hm q.name List.mem_cons_self
  refine ⟨p, ?_, ⟨hw.trans hn.whole, hn.start.trans hstart, hstop.trans hn.stop⟩, ?_⟩
  · rw [ht, Text.trim, String.toList_ofList]
  · rw [ht]
    apply (Text.isTrimmed_trimChars q.name.text).not_blank
    intro he
    apply hne
    rw [Text.trim, String.toList_ofList, he]

end Quotation

namespace Rule

open Quotation

variable {rule : Rule} {text : List Char} {l : Language}

theorem exists_names (rule : Rule) (text : List Char) : ∃ ps : List Piece,
    ps.map (fun p => String.ofList p.text) = (rule.signatures text).map Signature.name ∧
      (∀ p ∈ ps, p.whole = text ∧ ¬ Text.Blank p.text) ∧
      ps.Pairwise fun p p' => p.start < p'.start ∧ p.stop ≤ p'.start := by
  obtain ⟨ps, hmap, hps, hpair⟩ := exists_map_eq_filterMap
    (fun m => (signature? rule.family m).map Signature.name)
    (fun p : Piece => String.ofList p.text)
    (fun m p => m.Holds text p ∧ ¬ Text.Blank p.text)
    (pairwise_allMatches rule.regex text) (by
      intro m hm n hn
      obtain ⟨s, hs, rfl⟩ := Option.map_eq_some_iff.mp hn
      exact exists_name_of_signature? hm hs)
  refine ⟨ps, ?_, ?_, ?_⟩
  · rw [hmap, Rule.signatures, List.map_filterMap]
  · intro p hp
    obtain ⟨m, -, hm, hb⟩ := hps p hp
    exact ⟨hm.whole, hb⟩
  · apply hpair.imp
    rintro p p' ⟨m, m', hmm, ⟨hp, hb⟩, hp', -⟩
    have hlen := Text.length_pos_of_not_blank hb
    have hle : p.stop ≤ p'.start := hp.stop.trans (hmm.trans hp'.start)
    exact ⟨Nat.lt_of_lt_of_le (Nat.lt_add_of_pos_right hlen) hle, hle⟩

theorem flat_builtin (l : Language) : (builtin l).regex.flat = true := by
  cases l <;> decide

/-- All that the signatures quote is apart, when no group is inside of another one. -/
theorem exists_quotations (hf : rule.regex.flat = true) (text : List Char) :
    ∃ qs : List Quotation, qs.map Quotation.signature? = (rule.signatures text).map some ∧
      (∀ q ∈ qs, ∃ m ∈ rule.regex.allMatches text, q.Of m text) ∧
      (∀ p ∈ qs.flatMap pieces, p.whole = text) ∧
      (qs.flatMap pieces).Pairwise Piece.Apart := by
  obtain ⟨qs, hmap, hqs, hpair⟩ := exists_map_eq_filterMap
    (fun m => (signature? rule.family m).map some) Quotation.signature?
    (fun m q => m ∈ rule.regex.allMatches text ∧ q.Of m text)
    (pairwise_allMatches rule.regex text) (by
      intro m hm _ h
      obtain ⟨s, hs, rfl⟩ := Option.map_eq_some_iff.mp h
      obtain ⟨q, hq, ho⟩ := exists_of_signature? text hs
      exact ⟨q, hq, hm, ho⟩)
  refine ⟨qs, ?_, ?_, ?_, List.pairwise_flatMap.mpr ⟨?_, ?_⟩⟩
  · rw [hmap, Rule.signatures, List.map_filterMap]
  · intro q hq
    obtain ⟨m, hm, -, ho⟩ := hqs q hq
    exact ⟨m, hm, ho⟩
  · intro p hp
    obtain ⟨q, hq, hp⟩ := List.mem_flatMap.mp hp
    obtain ⟨m, hm, -, ho⟩ := hqs q hq
    exact (ho.holds hm p hp).whole
  · intro q hq
    obtain ⟨m, hm, -, ho⟩ := hqs q hq
    exact ho.pairwise hf hm
  · apply hpair.imp
    rintro q q' ⟨m, m', hmm, ⟨hm, ho⟩, hm', ho'⟩ p hp p' hp'
    exact Or.inl ((ho.holds hm p hp).stop.trans (hmm.trans (ho'.holds hm' p' hp').start))

/-- No text is reported twice. Names of any rule stand one after the other, so that they are
together no longer than the source text. For a built-in rule this holds of all three parts of the
signatures, as they were captured. -/
theorem extract_quotes (rule : Rule) (content : String) (h : '\x00' ∉ content.toList) :
    ∃ signatures, rule.extract content = .ok signatures ∧
      (∃ ps : List Piece,
        ps.map (fun p => String.ofList p.text) = signatures.map Signature.name ∧
        (∀ p ∈ ps, p.whole = content.toList ∧ ¬ Text.Blank p.text) ∧
        ps.Pairwise (fun p p' => p.start < p'.start ∧ p.stop ≤ p'.start)) ∧
      (signatures.flatMap fun s => s.name.toList).length ≤ content.length ∧
      signatures.length ≤ content.length ∧
      ∀ l, rule = builtin l → ∃ qs : List Quotation,
        qs.map Quotation.signature? = signatures.map some ∧
        (∀ q ∈ qs, ∃ m ∈ rule.regex.allMatches content.toList, q.Of m content.toList) ∧
        (∀ p ∈ qs.flatMap pieces, p.whole = content.toList) ∧
        (qs.flatMap pieces).Pairwise Piece.Apart ∧
        ((qs.flatMap pieces).flatMap Piece.text).length ≤ content.length := by
  obtain ⟨ps, hmap, hps, hpair⟩ := exists_names rule content.toList
  have hnames : (rule.signatures content.toList).flatMap (fun s => s.name.toList) =
      ps.flatMap Piece.text := by
    have hs := congrArg (List.flatMap String.toList) hmap
    simpa [List.flatMap_map] using hs.symm
  have hlen : (rule.signatures content.toList).length = ps.length := by
    simpa using (congrArg List.length hmap).symm
  have hle := Piece.length_flatMap_le (hpair.imp fun h => Or.inl h.2) fun p hp => (hps p hp).1
  rw [String.length_toList] at hle
  refine ⟨_, Rule.extract_eq_ok h, ⟨ps, hmap, hps, hpair⟩, hnames ▸ hle, ?_, ?_⟩
  · rw [hlen]
    exact (Piece.length_le_of_not_blank fun p hp => (hps p hp).2).trans hle
  · rintro l rfl
    obtain ⟨qs, hqs, hof, hw, hapart⟩ := exists_quotations (flat_builtin l) content.toList
    have hle := Piece.length_flatMap_le hapart hw
    rw [String.length_toList] at hle
    exact ⟨qs, hqs, hof, hw, hapart, hle⟩

theorem extract_quotes_c : '\x00' ∉ "int f(int a) \x7b f(a); \x7d".toList ∧
    (builtin .c).extract "int f(int a) \x7b f(a); \x7d" = .ok [⟨"f", "int a", "int"⟩] ∧
      ∃ qs : List Quotation, qs.map Quotation.signature? = [some ⟨"f", "int a", "int"⟩] ∧
        ((qs.flatMap pieces).flatMap Piece.text).length ≤ 22 := by
  have hn : '\x00' ∉ "int f(int a) \x7b f(a); \x7d".toList := by decide
  have he : (builtin .c).extract "int f(int a) \x7b f(a); \x7d" =
      .ok [⟨"f", "int a", "int"⟩] := by decide +kernel
  obtain ⟨signatures, hs, -, -, -, hb⟩ := extract_quotes (builtin .c) _ hn
  rw [he] at hs
  cases hs
  obtain ⟨qs, hqs, -, -, -, hle⟩ := hb .c rfl
  exact ⟨hn, he, qs, hqs, hle⟩

end Rule

end CodeOutline
