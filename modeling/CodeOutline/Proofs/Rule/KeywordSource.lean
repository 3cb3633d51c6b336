import CodeOutline.Proofs.Rule.Keyword

/-! # Source text with keywords

Source text in the six languages that write a keyword before a declaration and its result after
the arguments. The built-in rules read every list of declarations back.
-/

namespace CodeOutline.Rule.Builtin

open Regex

/-- The languages that write a keyword before a declaration. -/
inductive KeywordGrammar
  | python | rust | go | swift | kotlin | php
  deriving DecidableEq, Repr

namespace KeywordGrammar

def language : KeywordGrammar → Language
  | python => .python
  | rust => .rust
  | go => .go
  | swift => .swift
  | kotlin => .kotlin
  | php => .php

def keyword : KeywordGrammar → String
  | python => "def"
  | rust => "fn"
  | go => "func"
  | swift => "func"
  | kotlin => "fun"
  | php => "function"

/-- What stands between the arguments and a result. -/
def arrow : KeywordGrammar → String
  | python => " -> "
  | rust => " -> "
  | go => " "
  | swift => " -> "
  | kotlin => ": "
  | php => ": "

/-- The start of a body. -/
def opening : KeywordGrammar → String
  | python => ":"
  | _ => " \x7b"

/-- The rest of a body that does nothing. -/
def body : KeywordGrammar → String
  | python => "\n    pass\n"
  | _ => "\n\x7d\n"

/-- The result of a declaration, as it stands after the arguments. -/
def resultText (g : KeywordGrammar) : Option String → String
  | none => ""
  | some r => g.arrow ++ r

/-- A declaration up to the start of its body. -/
def head (g : KeywordGrammar) (d : Declaration) : String :=
  g.keyword ++ " " ++ d.name ++ "(" ++ d.arguments ++ ")" ++ g.resultText d.result ++ g.opening

/-- A declaration with a body that does nothing. -/
def text (g : KeywordGrammar) (d : Declaration) : String :=
  g.head d ++ g.body

/-- What the language lets a result be written as. -/
def AllowsResult : KeywordGrammar → List Char → Prop
  | python, r => '\x00' ∉ r ∧ ':' ∉ r
  | rust, r => '\x00' ∉ r ∧ '\x7b' ∉ r
  | go, r => '\x00' ∉ r ∧ '\x7b' ∉ r
  | swift, r => IsWord r
  | kotlin, r => IsWord r
  | php, r => IsWord r

instance : (g : KeywordGrammar) → (r : List Char) → Decidable (g.AllowsResult r)
  | python, r => inferInstanceAs (Decidable ('\x00' ∉ r ∧ ':' ∉ r))
  | rust, r => inferInstanceAs (Decidable ('\x00' ∉ r ∧ '\x7b' ∉ r))
  | go, r => inferInstanceAs (Decidable ('\x00' ∉ r ∧ '\x7b' ∉ r))
  | swift, r => inferInstanceAs (Decidable (IsWord r))
  | kotlin, r => inferInstanceAs (Decidable (IsWord r))
  | php, r => inferInstanceAs (Decidable (IsWord r))

/-- A name, arguments up to the first parenthesis, and a result that the language lets be. -/
structure Allows (g : KeywordGrammar) (d : Declaration) : Prop where
  name : IsIdentifier d.name.toList
  arguments : '\x00' ∉ d.arguments.toList ∧ ')' ∉ d.arguments.toList
  result : ∀ r ∈ d.result, g.AllowsResult r.toList

instance (g : KeywordGrammar) (d : Declaration) : Decidable (g.Allows d) :=
  decidable_of_iff (IsIdentifier d.name.toList ∧
      ('\x00' ∉ d.arguments.toList ∧ ')' ∉ d.arguments.toList) ∧
      ∀ r ∈ d.result, g.AllowsResult r.toList)
    ⟨fun ⟨hn, ha, hr⟩ => ⟨hn, ha, hr⟩, fun ⟨hn, ha, hr⟩ => ⟨hn, ha, hr⟩⟩

variable {g : KeywordGrammar} {d : Declaration} {c : Cursor} {o : Nat} {b : Option Char}
  {t v : List Char}

/-! ## Matches -/

/-- The pattern starts with an edge of a word and a keyword whose first letter no body has. -/
theorem regex_eq (g : KeywordGrammar) : ∃ x w rs,
    (builtin g.language).regex = concat ([edge] ++ letters (x :: w) ++ rs) ∧
      x ∉ g.body.toList := by
  cases g <;> exact ⟨_, _, _, rfl, by decide⟩

theorem refuses_of_head? (h : ∀ x ∈ v.head?, x ∈ g.body.toList) :
    Refuses ((builtin g.language).regex.reach? accept) v := by
  obtain ⟨x, w, rs, hr, hx⟩ := g.regex_eq
  rw [hr, reach?_concat]
  exact refuses_keyword fun hv => hx (h x hv)

theorem AllowsResult.noNul {r : List Char} (h : g.AllowsResult r) : '\x00' ∉ r := by
  cases g with
  | python => exact h.1
  | rust => exact h.1
  | go => exact h.1
  | swift => exact h.not_mem (by decide)
  | kotlin => exact h.not_mem (by decide)
  | php => exact h.not_mem (by decide)

theorem reaches_head (hb : Look.isWord true b = false) (h : g.Allows d) :
    Reaches (Declares d.name.toList d.arguments.toList (SameWords (d.result.getD "").toList) v)
      ((builtin g.language).regex.reach? accept ⟨o, b, (g.head d).toList ++ v⟩ []) := by
  obtain ⟨hn, ⟨_, ha⟩, hr⟩ := h
  obtain ⟨name, arguments, result⟩ := d
  simp only [head, String.toList_append, List.append_assoc]
  cases result with
  | none =>
    cases g with
    | python => exact reaches_python hb hn ha (Or.inl ⟨rfl, rfl⟩)
    | rust => exact reaches_rust hb hn ha (Or.inl ⟨rfl, rfl⟩)
    | go => exact reaches_go hb hn ha (Or.inl ⟨rfl, rfl⟩)
    | swift => exact reaches_swift hb hn.isWord ha (Or.inl ⟨rfl, rfl⟩)
    | kotlin => exact reaches_kotlin hb hn.isWord ha (Or.inl ⟨rfl, rfl⟩)
    | php => exact reaches_php hb hn.isWord ha (Or.inl ⟨rfl, rfl⟩)
  | some r =>
    have hr := hr r rfl
    have he : (g.resultText (some r)).toList = g.arrow.toList ++ r.toList := String.toList_append
    cases g with
    | python => exact reaches_python hb hn ha (Or.inr ⟨he, hr.2⟩)
    | rust => exact reaches_rust hb hn ha (Or.inr ⟨he, hr.2⟩)
    | go => exact reaches_go hb hn ha (Or.inr ⟨he, hr.2⟩)
    | swift => exact reaches_swift hb hn.isWord ha (Or.inr ⟨he, hr⟩)
    | kotlin => exact reaches_kotlin hb hn.isWord ha (Or.inr ⟨he, hr⟩)
    | php => exact reaches_php hb hn.isWord ha (Or.inr ⟨he, hr⟩)

theorem signature?_eq (g : KeywordGrammar) :
    Extraction.signature? (builtin g.language).family = Extraction.keywordSignature? := by
  cases g <;> rfl

theorem Declares.signature_eq {e : Cursor} {ks : Captures} (h : g.Allows d)
    (hd : Declares d.name.toList d.arguments.toList (SameWords (d.result.getD "").toList) v e
      ks) :
    Extraction.keywordSignature? ⟨c, e.offset, ks⟩ = some d.signature := by
  rw [hd.keywordSignature?_eq h.name.isWord, Declaration.signature, String.ofList_toList,
    String.ofList_toList, String.ofList_toList]

/-! ## Blocks -/

theorem toList_text (g : KeywordGrammar) (d : Declaration) :
    (g.text d).toList = (g.head d).toList ++ g.body.toList := String.toList_append

theorem isBlock_text (g : KeywordGrammar) (d : Declaration) : IsBlock (g.text d).toList := by
  have hk : ∃ x u, g.keyword.toList = x :: u ∧ Text.isBlank x = false := by
    cases g <;> exact ⟨_, _, rfl, by decide⟩
  have hl : ∃ w, g.body.toList = w ++ ['\n'] := by
    cases g <;> exact ⟨_, (List.dropLast_append_getLast (by decide)).symm⟩
  obtain ⟨x, u, hx, hb⟩ := hk
  obtain ⟨w, hw⟩ := hl
  constructor
  · simp only [text, head, String.toList_append, hx, List.cons_append]
    exact ⟨x, _, rfl, hb⟩
  · rw [toList_text, hw]
    exact ⟨_, (List.append_assoc _ w ['\n']).symm⟩

theorem noNul_text (h : g.Allows d) : '\x00' ∉ (g.text d).toList := by
  obtain ⟨hn, ⟨ha, _⟩, hr⟩ := h
  have hres : '\x00' ∉ (g.resultText d.result).toList := by
    cases hd : d.result with
    | none => simp [resultText]
    | some r =>
      have harrow : '\x00' ∉ g.arrow.toList := by cases g <;> decide
      rw [resultText, String.toList_append, List.mem_append]
      exact not_or.mpr ⟨harrow, (hr r hd).noNul⟩
  have hk : '\x00' ∉ g.keyword.toList := by cases g <;> decide
  have ho : '\x00' ∉ g.opening.toList := by cases g <;> decide
  have hb : '\x00' ∉ g.body.toList := by cases g <;> decide
  have hname : '\x00' ∉ d.name.toList := hn.isWord.not_mem (by decide)
  simp [text, head, String.toList_append, hres, hk, ho, hb, hname, ha]

theorem finds_text (h : g.Allows d) (hb : Look.isWord true c.before = false)
    (hc : c.rest = (g.text d).toList ++ t) :
    Finds (builtin g.language).regex.preferred?
      (Extraction.signature? (builtin g.language).family) c d.signature
      (c.past (g.text d).toList) := by
  obtain ⟨o, b, rest⟩ := c
  subst hc
  rw [toList_text]
  refine finds_of_reaches (t := t) (List.append_assoc _ _ _) ?_ ?_ ?_
  · cases g <;> simp [head, keyword]
  · rw [signature?_eq]
    obtain ⟨e, ks, he, hd⟩ := reaches_head (v := g.body.toList ++ t) (o := o) hb h
    rw [← List.append_assoc] at he
    exact ⟨e, ks, he, hd.rest, Declares.signature_eq h hd⟩
  · intro v y w hv
    refine refuses_of_head? fun x hx => ?_
    obtain rfl : y = x := by simpa using hx
    rw [hv]
    simp

/-- The declarations of a source text are read back, in order and with nothing else. -/
theorem extract_keyword_source (g : KeywordGrammar) (ds : List Declaration)
    (h : ∀ d ∈ ds, g.Allows d) :
    (builtin g.language).extract (String.join (ds.map g.text)) =
      .ok (ds.map Declaration.signature) := by
  refine Rule.extract_join (fun d _ => g.isBlock_text d) (fun d hd => noNul_text (h d hd))
    (refuses_of_head? (by simp)) fun d hd c t hb _ hc => ?_
  exact finds_text (h d hd) hb hc

theorem extract_keyword_source_python : (builtin .python).extract
    "def add( a,\n  b ):\n    pass\ndef get_2() -> dict :\n    pass\n" =
      .ok [⟨"add", "a, b", ""⟩, ⟨"get_2", "", "dict"⟩] := by
  have h := extract_keyword_source python
    [⟨"add", " a,\n  b ", none⟩, ⟨"get_2", "", some "dict "⟩] (by decide)
  exact h

end KeywordGrammar

end CodeOutline.Rule.Builtin
