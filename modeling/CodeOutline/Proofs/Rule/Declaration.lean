import CodeOutline.Proofs.Rule.Parts

/-! # Declarations

A declaration as it is written in source text, and what is to be read back of it: the name, and
arguments and result with their blanks collapsed. A source text is read block by block.
-/

namespace CodeOutline

/-- The parts of a declaration. -/
structure Declaration where
  name : String
  arguments : String
  /-- None when the declaration names no result. -/
  result : Option String
  deriving DecidableEq, Repr

/-- What is read back of a declaration. -/
def Declaration.signature (d : Declaration) : Signature :=
  ⟨d.name, Text.collapse d.arguments, Text.collapse (d.result.getD "")⟩

/-- A rule reads a text made of blocks, each with one declaration that a search from its start
finds, in order and with nothing else. -/
theorem Rule.extract_join {rule : Rule} {δ : Type} {block : δ → String} {reading : δ → Signature}
    {ds : List δ} (hb : ∀ d ∈ ds, Regex.IsBlock (block d).toList)
    (hnul : ∀ d ∈ ds, '\x00' ∉ (block d).toList)
    (hend : Regex.Refuses (rule.regex.reach? Regex.accept) [])
    (hf : ∀ d ∈ ds, ∀ c t, Look.isWord true c.before = false → Regex.Opens t →
      c.rest = (block d).toList ++ t → Regex.Finds rule.regex.preferred?
        (Extraction.signature? rule.family) c (reading d) (c.past (block d).toList)) :
    rule.extract (String.join (ds.map block)) = .ok (ds.map reading) := by
  have hl : (String.join (ds.map block)).toList = ds.flatMap fun d => (block d).toList := by
    rw [String.toList_join, List.flatMap_map]
  have hc : (ds.flatMap fun d => (block d).toList).contains '\x00' = false := by
    rw [Bool.eq_false_iff, ne_eq, List.contains_iff_mem, List.mem_flatMap]
    rintro ⟨d, hd, hm⟩
    exact hnul d hd hm
  rw [Rule.extract, hl, hc, if_neg Bool.false_ne_true, Rule.signatures,
    Regex.filterMap_allMatches_flatMap hb ?_ hf]
  rintro ⟨o, b, rest⟩ rfl
  rw [Regex.preferred?_eq]
  exact hend o b []

namespace Rule.Builtin

open Regex

/-- A match of a declaration, before a text that is left over: the name and the arguments are
captured as they stand, and the result is as asked. -/
structure Declares (n a : List Char) (R : List Char → Prop) (v : List Char) (d : Cursor)
    (ks : Captures) : Prop where
  rest : d.rest = v
  name : captured ks "name" = n
  arguments : captured ks "args" = a
  result : R (captured ks "ret")

/-- A text has the words of another one. -/
abbrev SameWords (r u : List Char) : Prop :=
  Text.collapseChars u = Text.collapseChars r

variable {c d : Cursor} {ks : Captures} {n a r v : List Char}

theorem collapse_ofList (u : List Char) :
    Text.collapse (String.ofList u) = String.ofList (Text.collapseChars u) := by
  rw [Text.collapse, String.toList_ofList]

theorem IsWord.trim_eq (h : IsWord n) : Text.trim (String.ofList n) = String.ofList n := by
  rw [Text.trim, String.toList_ofList, h.trimChars_eq]

theorem IsWord.ofTexts?_eq (h : IsWord n) (a r : String) :
    Signature.ofTexts? (String.ofList n) a r =
      some ⟨String.ofList n, Text.collapse a, Text.collapse r⟩ := by
  have hne : (String.ofList n).isEmpty = false := by
    rw [Bool.eq_false_iff, ne_eq, String.isEmpty_iff]
    intro he
    exact h.1 (by simpa using congrArg String.toList he)
  rw [Signature.ofTexts?, h.trim_eq, hne, if_neg Bool.false_ne_true]

theorem IsWord.collapse_eq {s : String} (h : IsWord s.toList) : Text.collapse s = s := by
  rw [Text.collapse, Text.collapseChars_eq_self fun x hx => isBlank_of_isNameChar (h.2 x hx),
    String.ofList_toList]

theorem IsWord.isBlankText_eq {s : String} (h : IsWord s.toList) :
    Text.isBlankText s = false := by
  obtain ⟨x, hx⟩ := List.exists_mem_of_ne_nil _ h.1
  rw [Text.isBlankText, List.all_eq_false]
  exact ⟨x, hx, by rw [isBlank_of_isNameChar (h.2 x hx)]; exact Bool.false_ne_true⟩

theorem IsWord.isControlKeyword_eq {s : String} (h : IsWord s.toList)
    (hs : s ∉ Extraction.controlKeywords) : Extraction.isControlKeyword s = false := by
  have ht : Text.trim s = s := by rw [Text.trim, h.trimChars_eq, String.ofList_toList]
  rw [Extraction.isControlKeyword, ht, Bool.eq_false_iff, ne_eq, List.contains_iff_mem]
  exact hs

theorem Declares.keywordSignature?_eq (h : Declares n a (SameWords r) v d ks) (hn : IsWord n) :
    Extraction.keywordSignature? ⟨c, d.offset, ks⟩ =
      some ⟨String.ofList n, Text.collapse (String.ofList a), Text.collapse (String.ofList r)⟩ := by
  change Signature.ofTexts? (String.ofList (captured ks "name"))
    (String.ofList (captured ks "args")) (String.ofList (captured ks "ret")) = _
  rw [h.name, h.arguments, hn.ofTexts?_eq, collapse_ofList (captured ks "ret"), h.result,
    collapse_ofList r]

theorem Declares.modifierSignature?_eq {R : List Char → Prop} (h : Declares n a R v d ks)
    (hn : IsWord n) (hk : String.ofList n ∉ Extraction.controlKeywords) :
    Extraction.modifierSignature? ⟨c, d.offset, ks⟩ =
      some ⟨String.ofList n, Text.collapse (String.ofList a), ""⟩ := by
  change (if Extraction.isControlKeyword (String.ofList (captured ks "name")) = true then none
    else Signature.ofTexts? (String.ofList (captured ks "name"))
      (String.ofList (captured ks "args")) "") = _
  have hc : Extraction.isControlKeyword (String.ofList n) = false :=
    IsWord.isControlKeyword_eq (by rwa [String.toList_ofList]) hk
  rw [h.name, h.arguments, hc, if_neg Bool.false_ne_true, hn.ofTexts?_eq]
  rfl

end Rule.Builtin

end CodeOutline
