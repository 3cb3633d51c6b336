import CodeOutline.Proofs.Rule.TypeFirst

/-! # Source text with the type first

Source text in the four languages that write a result or a modifier before a declaration. The
built-in rules read every list of declarations back, although their patterns may start anywhere.
-/

namespace CodeOutline.Rule.Builtin

open Regex

/-- The parts of a declaration with its type first. Only Java writes the modifier. -/
structure TypedDeclaration where
  modifier : Modifier
  result : String
  name : String
  arguments : String
  deriving DecidableEq, Repr

/-- Its words are no words of statements, and its arguments end at the first parenthesis. -/
structure TypedDeclaration.Allowed (d : TypedDeclaration) : Prop where
  name : IsIdentifier d.name.toList
  result : IsWord d.result.toList
  name_not_mem : d.name ∉ Extraction.controlKeywords
  result_not_mem : d.result ∉ Extraction.controlKeywords
  arguments : '\x00' ∉ d.arguments.toList ∧ ')' ∉ d.arguments.toList

instance (d : TypedDeclaration) : Decidable d.Allowed :=
  decidable_of_iff (IsIdentifier d.name.toList ∧ IsWord d.result.toList ∧
      d.name ∉ Extraction.controlKeywords ∧ d.result ∉ Extraction.controlKeywords ∧
      '\x00' ∉ d.arguments.toList ∧ ')' ∉ d.arguments.toList)
    ⟨fun ⟨hn, hr, hn', hr', ha⟩ => ⟨hn, hr, hn', hr', ha⟩,
      fun ⟨hn, hr, hn', hr', ha⟩ => ⟨hn, hr, hn', hr', ha⟩⟩

/-- The languages that write the type before the name of a declaration. -/
inductive TypeFirstGrammar
  | c | cpp | dart | java
  deriving DecidableEq, Repr

namespace TypeFirstGrammar

def language : TypeFirstGrammar → Language
  | c => .c
  | cpp => .cpp
  | dart => .dart
  | java => .java

/-- What stands before the type. -/
def start : TypeFirstGrammar → Modifier → String
  | java, m => m.text ++ " "
  | _, _ => ""

/-- A declaration up to the start of its body. -/
def head (g : TypeFirstGrammar) (d : TypedDeclaration) : String :=
  g.start d.modifier ++ d.result ++ " " ++ d.name ++ "(" ++ d.arguments ++ ") \x7b"

/-- The rest of a body that does nothing. -/
def body : String := "\n\x7d\n"

/-- A declaration with a body that does nothing. -/
def text (g : TypeFirstGrammar) (d : TypedDeclaration) : String :=
  g.head d ++ body

/-- What is read back of a declaration. In Java that is no result. -/
def signature (g : TypeFirstGrammar) (d : TypedDeclaration) : Signature :=
  match g with
  | java => ⟨d.name, Text.collapse d.arguments, ""⟩
  | _ => ⟨d.name, Text.collapse d.arguments, d.result⟩

variable {g : TypeFirstGrammar} {d : TypedDeclaration} {c e : Cursor} {ks : Captures} {o : Nat}
  {b : Option Char} {t v : List Char}

/-! ## Matches -/

/-- The result that a match captures. -/
def captures (g : TypeFirstGrammar) (d : TypedDeclaration) : List Char :=
  match g with
  | java => []
  | _ => d.result.toList

theorem reaches_head (h : d.Allowed) :
    Reaches (Declares d.name.toList d.arguments.toList (· = g.captures d) v)
      ((builtin g.language).regex.reach? accept ⟨o, b, (g.head d).toList ++ v⟩ []) := by
  obtain ⟨hn, hr, _, _, _, ha⟩ := h
  simp only [head, String.toList_append, List.append_assoc]
  cases g with
  | c => exact reaches_c hn.isWord hr ha
  | cpp => exact reaches_cpp hn.isWord hr ha
  | dart => exact reaches_dart hn hr ha
  | java =>
    simp only [start, String.toList_append, List.append_assoc]
    exact reaches_java d.modifier hn.isWord hr ha

/-- Neither at the end of a text nor before what is left of a body does a match start, when no
space comes after it. -/
theorem refuses_body (h : ∀ x ∈ v.head?, x ∈ body.toList)
    (hv : ∀ x w, v = x :: w → w.head? ≠ some ' ') :
    Refuses ((builtin g.language).regex.reach? accept) v := by
  have hs : ∀ s : CharSet, body.toList.any s.contains = false →
      ∀ x ∈ v.head?, s.contains x = false := fun s hs x hx =>
    Bool.eq_false_iff.mpr (List.any_eq_false.mp hs x (h x hx))
  cases g with
  | c => exact refuses_result (hs _ (by decide))
  | cpp => exact refuses_result (hs _ (by decide))
  | dart => exact refuses_result (hs _ (by decide))
  | java =>
    have hb : 'p' ∉ body.toList ∧ 's' ∉ body.toList := by decide
    refine refuses_java (fun x hx => ?_) fun x w hw _ => hv x w hw
    exact ⟨fun hp => hb.1 (hp ▸ h x hx), fun hs => hb.2 (hs ▸ h x hx)⟩

theorem returnTypeFirstSignature?_eq (h : d.Allowed)
    (hd : Declares d.name.toList d.arguments.toList (· = d.result.toList) v e ks) :
    Extraction.returnTypeFirstSignature? ⟨c, e.offset, ks⟩ =
      some ⟨d.name, Text.collapse d.arguments, d.result⟩ := by
  change (if (Text.isBlankText (String.ofList (captured ks "ret")) ||
      Extraction.isControlKeyword (String.ofList (captured ks "ret")) ||
      Extraction.isControlKeyword (String.ofList (captured ks "name"))) = true then none
    else Signature.ofTexts? (String.ofList (captured ks "name"))
      (String.ofList (captured ks "args")) (String.ofList (captured ks "ret"))) = _
  have hn := h.name.isWord
  rw [hd.result, hd.name, hd.arguments, hn.ofTexts?_eq, String.ofList_toList,
    String.ofList_toList, String.ofList_toList, h.result.isBlankText_eq,
    h.result.isControlKeyword_eq h.result_not_mem, hn.isControlKeyword_eq h.name_not_mem,
    h.result.collapse_eq]
  rfl

theorem modifierSignature?_eq {R : List Char → Prop} (h : d.Allowed)
    (hd : Declares d.name.toList d.arguments.toList R v e ks) :
    Extraction.modifierSignature? ⟨c, e.offset, ks⟩ =
      some ⟨d.name, Text.collapse d.arguments, ""⟩ := by
  rw [hd.modifierSignature?_eq h.name.isWord
    (by rw [String.ofList_toList]; exact h.name_not_mem), String.ofList_toList,
    String.ofList_toList]

theorem signature?_eq (h : d.Allowed)
    (hd : Declares d.name.toList d.arguments.toList (· = g.captures d) v e ks) :
    Extraction.signature? (builtin g.language).family ⟨c, e.offset, ks⟩ =
      some (g.signature d) := by
  cases g with
  | c => exact returnTypeFirstSignature?_eq h hd
  | cpp => exact returnTypeFirstSignature?_eq h hd
  | dart => exact returnTypeFirstSignature?_eq h hd
  | java =>
    have hf : Extraction.signature? (builtin java.language).family =
        Extraction.modifierSignature? := rfl
    rw [hf, modifierSignature?_eq h hd, signature]

/-! ## Blocks -/

theorem isBlock_text (g : TypeFirstGrammar) (h : d.Allowed) : IsBlock (g.text d).toList := by
  have hh : ∃ x u, (g.start d.modifier ++ d.result).toList = x :: u ∧ Text.isBlank x = false := by
    obtain ⟨hne, hw⟩ := h.result
    obtain ⟨x, u, hxu⟩ := List.exists_cons_of_ne_nil hne
    have hx : Text.isBlank x = false := isBlank_of_isNameChar (hw x (by simp [hxu]))
    cases g with
    | c => exact ⟨x, u, by simpa [start] using hxu, hx⟩
    | cpp => exact ⟨x, u, by simpa [start] using hxu, hx⟩
    | dart => exact ⟨x, u, by simpa [start] using hxu, hx⟩
    | java =>
      rw [start, String.toList_append, String.toList_append]
      cases d.modifier <;> exact ⟨_, _, rfl, by decide⟩
  obtain ⟨x, u, hxu, hx⟩ := hh
  constructor
  · rw [text, head]
    simp only [String.toList_append, List.append_assoc] at hxu ⊢
    rw [← List.append_assoc, hxu]
    exact ⟨x, _, rfl, hx⟩
  · rw [text, String.toList_append]
    exact ⟨(g.head d).toList ++ ['\n', '\x7d'], (List.append_assoc _ ['\n', '\x7d'] ['\n']).symm⟩

theorem noNul_text (g : TypeFirstGrammar) (h : d.Allowed) : '\x00' ∉ (g.text d).toList := by
  obtain ⟨hn, hr, _, _, ha, _⟩ := h
  have hs : '\x00' ∉ (g.start d.modifier).toList := by
    cases g <;> cases d.modifier <;> decide
  have hname : '\x00' ∉ d.name.toList := hn.isWord.not_mem (by decide)
  have hres : '\x00' ∉ d.result.toList := hr.not_mem (by decide)
  simp [text, head, body, String.toList_append, hs, hname, hres, ha]

theorem finds_text (h : d.Allowed) (ht : Opens t) (hc : c.rest = (g.text d).toList ++ t) :
    Finds (builtin g.language).regex.preferred?
      (Extraction.signature? (builtin g.language).family) c (g.signature d)
      (c.past (g.text d).toList) := by
  obtain ⟨o, b, rest⟩ := c
  subst hc
  rw [text, String.toList_append]
  refine finds_of_reaches (t := t) (List.append_assoc _ _ _) ?_ ?_ ?_
  · simp [head, String.toList_append]
  · obtain ⟨e, ks, he, hd⟩ := reaches_head (g := g) (v := body.toList ++ t) (o := o) (b := b) h
    rw [← List.append_assoc] at he
    exact ⟨e, ks, he, hd.rest, signature?_eq h hd⟩
  · intro v y w hv
    refine refuses_body (fun x hx => ?_) fun x u hu => ?_
    · obtain rfl : y = x := by simpa using hx
      rw [hv]
      simp
    · obtain ⟨_, rfl⟩ := List.cons.inj hu
      -- What comes after a character of the body is another one of it, or the next block.
      intro hs
      cases w with
      | nil =>
        have := ht ' ' hs
        cases this
      | cons z w =>
        obtain rfl : z = ' ' := by simpa using hs
        have hz : ' ' ∈ body.toList := by rw [hv]; simp
        revert hz
        decide

/-- The declarations of a source text are read back, in order and with nothing else. -/
theorem extract_typeFirst_source (g : TypeFirstGrammar) (ds : List TypedDeclaration)
    (h : ∀ d ∈ ds, d.Allowed) :
    (builtin g.language).extract (String.join (ds.map g.text)) = .ok (ds.map g.signature) := by
  refine Rule.extract_join (fun d hd => g.isBlock_text (h d hd))
    (fun d hd => g.noNul_text (h d hd)) (refuses_body (by simp) (by simp)) fun d hd c t _ ht hc => ?_
  exact finds_text (h d hd) ht hc

theorem extract_typeFirst_source_java : (builtin .java).extract
    "static int add(int a,\n  int b) \x7b\n\x7d\nprivate void run_2() \x7b\n\x7d\n" =
      .ok [⟨"add", "int a, int b", ""⟩, ⟨"run_2", "", ""⟩] := by
  have h := extract_typeFirst_source java
    [⟨.isStatic, "int", "add", "int a,\n  int b"⟩, ⟨.isPrivate, "void", "run_2", ""⟩] (by decide)
  exact h

end TypeFirstGrammar

end CodeOutline.Rule.Builtin
