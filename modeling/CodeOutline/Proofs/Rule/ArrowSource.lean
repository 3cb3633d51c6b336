import CodeOutline.Proofs.Rule.Arrow

/-! # Source text in three forms

Source text with functions, arrows that are assigned to a name, and methods, in any order. The
built-in rules of the two languages that have them read every such text back. A match does not
always read the start of a body, so what it leaves over depends on the form.
-/

namespace CodeOutline.Rule.Builtin

open Regex

/-- A declaration in one of the forms. Methods name no result. -/
inductive ArrowItem
  | function (d : Declaration)
  | assignment (d : Declaration)
  | method (name arguments : String)
  deriving DecidableEq, Repr

namespace ArrowItem

@[simp] def form : ArrowItem → ArrowForm
  | function _ => .function
  | assignment _ => .assignment
  | method _ _ => .method

@[simp] def declaration : ArrowItem → Declaration
  | function d => d
  | assignment d => d
  | method name arguments => ⟨name, arguments, none⟩

/-- A result with the colon before it. -/
def resultText : Option String → String
  | none => ""
  | some r => ": " ++ r

/-- A declaration with a body that does nothing. -/
def text : ArrowItem → String
  | function d => "function " ++ d.name ++ "(" ++ d.arguments ++ ")" ++ resultText d.result ++
    " \x7b\n\x7d\n"
  | assignment d => "const " ++ d.name ++ " = (" ++ d.arguments ++ ")" ++ resultText d.result ++
    " => \x7b\n\x7d;\n"
  | method name arguments => name ++ "(" ++ arguments ++ ") \x7b\n\x7d\n"

/-- Its name is no word of a statement, its arguments end at the first parenthesis, and its result
is one that can stand after a colon. -/
structure Allowed (i : ArrowItem) : Prop where
  name : IsIdentifier i.declaration.name.toList
  name_not_mem : i.declaration.name ∉ Extraction.controlKeywords
  arguments : '\x00' ∉ i.declaration.arguments.toList ∧ ')' ∉ i.declaration.arguments.toList
  result : ∀ r ∈ i.declaration.result, '\x00' ∉ r.toList ∧ IsResultText r.toList

instance (i : ArrowItem) : Decidable i.Allowed :=
  decidable_of_iff (IsIdentifier i.declaration.name.toList ∧
      i.declaration.name ∉ Extraction.controlKeywords ∧
      ('\x00' ∉ i.declaration.arguments.toList ∧ ')' ∉ i.declaration.arguments.toList) ∧
      ∀ r ∈ i.declaration.result, '\x00' ∉ r.toList ∧ IsResultText r.toList)
    ⟨fun ⟨hn, hk, ha, hr⟩ => ⟨hn, hk, ha, hr⟩, fun ⟨hn, hk, ha, hr⟩ => ⟨hn, hk, ha, hr⟩⟩

variable {i : ArrowItem} {c d : Cursor} {ks : Captures} {o : Nat} {b : Option Char}
  {t v : List Char}

/-! ## Matches -/

/-- What a match reads of a declaration. A function is read up to its body only after a result. -/
def head : ArrowItem → String
  | function d => "function " ++ d.name ++ "(" ++ d.arguments ++ ")" ++
    match d.result with
    | none => ""
    | some r => ": " ++ r ++ " \x7b"
  | assignment d => "const " ++ d.name ++ " = (" ++ d.arguments ++ ")" ++ resultText d.result ++
    " =>"
  | method name arguments => name ++ "(" ++ arguments ++ ") \x7b"

/-- What a match leaves over. -/
def leftover : ArrowItem → String
  | function ⟨_, _, none⟩ => " \x7b\n\x7d\n"
  | function ⟨_, _, some _⟩ => "\n\x7d\n"
  | assignment _ => " \x7b\n\x7d;\n"
  | method _ _ => "\n\x7d\n"

theorem toList_text (i : ArrowItem) : i.text.toList = i.head.toList ++ i.leftover.toList := by
  rcases i with ⟨n, a, _ | r⟩ | ⟨n, a, r⟩ | ⟨n, a⟩ <;>
    simp [text, head, leftover, resultText]

theorem reaches_head (hb : Look.isWord true b = false) (h : i.Allowed) :
    Reaches (ArrowDeclares i.form i.declaration.name.toList i.declaration.arguments.toList
        (i.declaration.result.getD "").toList (i.leftover.toList ++ v))
      (arrowRegex.reach? accept ⟨o, b, i.head.toList ++ (i.leftover.toList ++ v)⟩ []) := by
  obtain ⟨hn, _, ⟨_, ha⟩, hr⟩ := h
  match i with
  | function ⟨n, a, none⟩ =>
    have hf := reaches_function (o := o) (v := ['\n', '\x7d', '\n'] ++ v) hb hn ha
      (Or.inl ⟨rfl, rfl, rfl⟩)
    simpa [head, leftover] using hf
  | function ⟨n, a, some r⟩ =>
    have hf := reaches_function (o := o) (v := ['\n', '\x7d', '\n'] ++ v) hb hn ha
      (Or.inr ⟨rfl, (hr r rfl).2, rfl⟩)
    simpa [head, leftover] using hf
  | assignment ⟨n, a, none⟩ =>
    have hf := reaches_assignment (o := o) (v := [' ', '\x7b', '\n', '\x7d', ';', '\n'] ++ v)
      hb hn ha (Or.inl ⟨rfl, rfl⟩)
    simpa [head, leftover, resultText] using hf
  | assignment ⟨n, a, some r⟩ =>
    have hf := reaches_assignment (o := o) (v := [' ', '\x7b', '\n', '\x7d', ';', '\n'] ++ v)
      hb hn ha (Or.inr ⟨rfl, (hr r rfl).2⟩)
    simpa [head, leftover, resultText] using hf
  | method n a =>
    have hm := reaches_method (o := o) (b := b) (v := ['\n', '\x7d', '\n'] ++ v) hn ha
    simpa [head, leftover] using hm

theorem arrowSignature?_eq (h : i.Allowed) (hd : ArrowDeclares i.form i.declaration.name.toList
      i.declaration.arguments.toList (i.declaration.result.getD "").toList v d ks) :
    Extraction.arrowSignature? ⟨c, d.offset, ks⟩ = some i.declaration.signature := by
  rw [hd.arrowSignature?_eq h.name.isWord (by rw [String.ofList_toList]; exact h.name_not_mem),
    Declaration.signature, String.ofList_toList, String.ofList_toList, String.ofList_toList]

theorem isNameChar_leftover (i : ArrowItem) : ∀ x ∈ i.leftover.toList, isNameChar x = false := by
  have hl : i.leftover.toList.any isNameChar = false := by
    rcases i with ⟨n, a, _ | r⟩ | ⟨n, a, r⟩ | ⟨n, a⟩
    all_goals
      rw [leftover]
      decide
  exact fun x hx => Bool.eq_false_iff.mpr (List.any_eq_false.mp hl x hx)

/-! ## Blocks -/

theorem opens_text (h : i.Allowed) : ∃ x u, i.text.toList = x :: u ∧ Text.isBlank x = false := by
  match i with
  | function d => exact ⟨'f', _, by simp [text]; rfl, by decide⟩
  | assignment d => exact ⟨'c', _, by simp [text]; rfl, by decide⟩
  | method n a =>
    obtain ⟨x, u, hxu, hx, _⟩ := h.name
    rw [declaration] at hxu
    exact ⟨x, _, by simp [text, hxu]; rfl, isBlank_of_isNameChar (isNameChar_of_isNameStart hx)⟩

theorem isBlock_text (h : i.Allowed) : IsBlock i.text.toList := by
  refine ⟨opens_text h, ?_⟩
  have hl : i.leftover.toList.getLast? = some '\n' := by
    rcases i with ⟨n, a, _ | r⟩ | ⟨n, a, r⟩ | ⟨n, a⟩ <;> simp [leftover]
  obtain ⟨w, hw⟩ := List.getLast?_eq_some_iff.mp hl
  rw [toList_text, hw]
  exact ⟨_, (List.append_assoc _ w ['\n']).symm⟩

theorem noNul_text (h : i.Allowed) : '\x00' ∉ i.text.toList := by
  obtain ⟨hn, _, ⟨ha, _⟩, hr⟩ := h
  have hname : '\x00' ∉ i.declaration.name.toList := hn.isWord.not_mem (by decide)
  rcases i with ⟨n, a, _ | r⟩ | ⟨n, a, _ | r⟩ | ⟨n, a⟩ <;>
    simp_all [text, resultText]

/-- From the start of a declaration, outside of a word, a search finds the declaration and nothing
else up to its end. -/
theorem finds_text (h : i.Allowed) (hb : Look.isWord true c.before = false)
    (hc : c.rest = i.text.toList ++ t) :
    Finds arrowRegex.preferred? Extraction.arrowSignature? c i.declaration.signature
      (c.past i.text.toList) := by
  obtain ⟨o, b, rest⟩ := c
  subst hc
  rw [toList_text]
  refine finds_of_reaches (t := t) (List.append_assoc _ _ _) ?_ ?_ ?_
  · rcases i with ⟨n, a, r⟩ | ⟨n, a, r⟩ | ⟨n, a⟩ <;> simp [head]
  · obtain ⟨e, ks, he, hd⟩ := reaches_head (v := t) (o := o) hb h
    rw [← List.append_assoc] at he
    exact ⟨e, ks, he, hd.rest, arrowSignature?_eq h hd⟩
  · intro v y w hv
    refine refuses_arrow fun x hx => i.isNameChar_leftover x ?_
    obtain rfl : y = x := by simpa using hx
    rw [hv]
    simp

/-- The declarations of a source text are read back, whatever forms follow each other, in order and
with nothing else. -/
theorem extract_arrow_source (l : Language) (hl : (builtin l).family = .arrow)
    (items : List ArrowItem) (h : ∀ i ∈ items, i.Allowed) :
    (builtin l).extract (String.join (items.map text)) =
      .ok (items.map fun i => i.declaration.signature) := by
  have hr : (builtin l).regex = arrowRegex := by
    cases l <;> first | rfl | cases hl
  refine Rule.extract_join (fun i hi => isBlock_text (h i hi)) (fun i hi => noNul_text (h i hi))
    ?_ fun i hi c t hb _ hc => ?_
  · rw [hr]
    exact refuses_arrow (by simp)
  · rw [hr, hl]
    exact finds_text (h i hi) hb hc

theorem extract_arrow_source_typescript : (builtin .typescript).extract
    ("load(path) \x7b\n\x7d\nfunction add(a,\n  b):  Map<string,\n number>  \x7b\n\x7d\n" ++
      "const run = () => \x7b\n\x7d;\nconst of_2 = ( x ): Box => \x7b\n\x7d;\n" ++
      "function constant() \x7b\n\x7d\n") =
    .ok [⟨"load", "path", ""⟩, ⟨"add", "a, b", "Map<string, number>"⟩, ⟨"run", "", ""⟩,
      ⟨"of_2", "x", "Box"⟩, ⟨"constant", "", ""⟩] := by
  have h := extract_arrow_source .typescript rfl
    [.method "load" "path", .function ⟨"add", "a,\n  b", some " Map<string,\n number> "⟩,
      .assignment ⟨"run", "", none⟩, .assignment ⟨"of_2", " x ", some "Box"⟩,
      .function ⟨"constant", "", none⟩] (by decide)
  exact h

end ArrowItem

end CodeOutline.Rule.Builtin
