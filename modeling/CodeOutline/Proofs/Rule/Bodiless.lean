import CodeOutline.Proofs.Regex.Matches
import CodeOutline.Proofs.Rule.Arrow
import CodeOutline.Proofs.Rule.Boundary
import CodeOutline.Proofs.Rule.KeywordSource
import CodeOutline.Proofs.Rule.TypeFirstSource

/-! # Declarations without a body

The built-in rules of four languages want the start of a body, or of an arrow, and where a
declaration has none they go on to the next one in the text. So the declaration after a finished one
is not reported: it is taken into the result or the arguments of the finished one, or passed over.
-/

namespace CodeOutline

/-- The name and the arguments of a declaration. -/
structure Callable where
  name : String
  arguments : String
  deriving DecidableEq, Repr

namespace Callable

/-- What is to be read back of a declaration that names no result. -/
def signature (d : Callable) : Signature :=
  ⟨d.name, Text.collapse d.arguments, ""⟩

/-- The characters that plain arguments do without. -/
def marks : List Char := ['(', ')', '\x7b', '\x7d', ';', '=']

/-- A name that is no word of a statement, and arguments without any marks. -/
structure Plain (d : Callable) : Prop where
  name : Rule.Builtin.IsIdentifier d.name.toList
  name_not_mem : d.name ∉ Extraction.controlKeywords
  noNul : '\x00' ∉ d.arguments.toList
  arguments : ∀ x ∈ d.arguments.toList, x ∉ marks

instance (d : Callable) : Decidable d.Plain :=
  decidable_of_iff (Rule.Builtin.IsIdentifier d.name.toList ∧
      d.name ∉ Extraction.controlKeywords ∧ '\x00' ∉ d.arguments.toList ∧
      d.arguments.toList.all (· ∉ marks) = true) <| by
    simp only [List.all_eq_true, decide_eq_true_eq]
    exact ⟨fun ⟨hn, hk, h, ha⟩ => ⟨hn, hk, h, ha⟩, fun ⟨hn, hk, h, ha⟩ => ⟨hn, hk, h, ha⟩⟩

theorem Plain.notMem {d : Callable} (h : d.Plain) {x : Char} (hx : x ∈ marks) :
    x ∉ d.arguments.toList :=
  fun hm => h.arguments x hm hx

end Callable

/-- A rule whose expression matches a text from its start, with nothing to be matched in what is
left over, finds this one signature. -/
theorem Rule.extract_eq_singleton {rule : Rule} {content : String} {l : List Char} {s : Signature}
    (hc : rule.regex.consumes = true) (hnul : '\x00' ∉ content.toList)
    (hr : Regex.Reaches (fun d ks => d.rest = l ∧
        Extraction.signature? rule.family ⟨.start content.toList, d.offset, ks⟩ = some s)
      (rule.regex.reach? Regex.accept (.start content.toList) []))
    (hl : ∀ v y w, l = v ++ y :: w → Regex.Refuses (rule.regex.reach? Regex.accept) (y :: w)) :
    rule.extract content = .ok [s] := by
  obtain ⟨d, ks, hd, hrest, hs⟩ := hr
  rw [← Regex.preferred?_eq] at hd
  have hn : ∀ p ∈ d.along l, rule.regex.preferred? p = none := by
    intro p hp
    obtain ⟨v, y, w, rfl, rfl⟩ := Cursor.mem_along.mp hp
    have hrefuse := hl v y w rfl (d.past v).offset (d.past v).before []
    rwa [← Cursor.rest_past hrest, ← Regex.preferred?_eq] at hrefuse
  have hd' : d.rest = l ++ [] := by rw [hrest, List.append_nil]
  rw [Rule.extract_eq_ok hnul, Rule.signatures, Regex.allMatches_eq_matchesFrom hc,
    Regex.matchesFrom_of_some hc hd, Regex.matchesFrom_past hd' hn,
    Regex.matchesFrom_of_end hc (Cursor.rest_past hd'), List.filterMap_cons, hs,
    List.filterMap_nil]

namespace Rule.Builtin

open Regex

variable {n a w v : List Char} {o : Nat} {b : Option Char}

/-! ## Matches over a semicolon -/

/-- In Rust neither a result nor a body starts with a semicolon, so the arguments go on. -/
theorem reaches_rust_over (hb : Look.isWord true b = false) (hn : IsIdentifier n) (ha : ')' ∉ a)
    (hw : ')' ∉ w) :
    Reaches (Declares n (a ++ ')' :: ';' :: w) (SameWords []) v) (rustRegex.reach? accept
      ⟨o, b, ['f', 'n'] ++ ' ' :: (n ++ '(' :: ((a ++ ')' :: ';' :: w) ++ ')' ::
        ' ' :: '\x7b' :: v))⟩ []) := by
  refine reaches_rust_head hb hn fun o b κ hκ hname => ?_
  -- First no way on from the semicolon, then the one after the second parenthesis.
  refine reaches_arguments_over ha (List.not_mem_cons_of_ne_of_not_mem (by decide) hw) ?_ ?_
  · refine refuses_opt ?_ (refuses_no_blanks (opens_cons rfl) (refuses_char (by simp)))
    rw [reach?_concat]
    exact refuses_no_blanks (opens_cons rfl) (refuses_letters (by simp))
  · apply reaches_opt_of_refuses
    · rw [reach?_concat]
      exact refuses_blanks_space (opens_cons rfl) (refuses_letters (by simp))
        (refuses_letters (by simp))
    · exact reaches_space_brace (reaches_some ⟨rfl, by simp [hκ, hname],
        by simp only [captured_cons, Capture.text_mk, beq_self_eq_true, if_true], by simp [hκ]⟩)

theorem reaches_assignment_over (hb : Look.isWord true b = false) (hn : IsIdentifier n)
    (ha : ')' ∉ a) (hw : ')' ∉ w) :
    Reaches (ArrowDeclares .assignment n (a ++ ')' :: ';' :: w) [] v) (arrowRegex.reach? accept
      ⟨o, b, ['c', 'o', 'n', 's', 't'] ++ ' ' :: (n ++ ' ' :: '=' :: ' ' :: '(' ::
        ((a ++ ')' :: ';' :: w) ++ ')' :: ' ' :: '=' :: '>' :: v))⟩ []) := by
  refine reaches_assignment_head hb hn fun o b κ hκ hname => ?_
  refine reaches_arguments_over ha (List.not_mem_cons_of_ne_of_not_mem (by decide) hw) ?_ ?_
  · refine refuses_opt ?_ (refuses_no_blanks (opens_cons rfl) (refuses_char (by simp)))
    rw [reach?_concat]
    exact refuses_no_blanks (opens_cons rfl) (refuses_char (by simp))
  · apply reaches_opt_of_refuses
    · rw [reach?_concat]
      exact refuses_blanks_space (opens_cons rfl) (refuses_char (by simp)) (refuses_char (by simp))
    · refine reaches_blanks_space (opens_cons rfl) ?_
      refine reaches_letters (w := ['=', '>']) ?_
      exact reaches_some ⟨rfl, by simp [ArrowForm.ofCaptures, Captures.find?, hκ],
        by simp [hκ, hname],
        by simp only [captured_cons, Capture.text_mk, ArrowForm.argumentsGroup,
          beq_self_eq_true, if_true], by simp [hκ]⟩

/-- In Java what is thrown goes on up to the start of a body. -/
theorem reaches_java_throws (hn : IsWord n) (ha : ')' ∉ a) (hw : '\x7b' ∉ w) :
    Reaches (Declares n a (· = []) v) (javaRegex.reach? accept
      ⟨o, b, ' ' :: ' ' :: (['v', 'o', 'i', 'd'] ++ ' ' :: (n ++ '(' :: (a ++ ')' ::
        ' ' :: (['t', 'h', 'r', 'o', 'w', 's'] ++ ' ' :: (w ++ '\x7b' :: v)))))⟩ []) := by
  rw [javaRegex, reach?_concat]
  refine reaches_modifier_blank ?_
  refine reaches_java_head hn (r := ['v', 'o', 'i', 'd']) (by decide) ha
    fun o b κ κ' hκ hname hκ' harguments => ?_
  refine reaches_blanks_space (opens_cons rfl) ?_
  apply reaches_opt
  rw [reach?_concat]
  refine reaches_letters (w := ['t', 'h', 'r', 'o', 'w', 's']) ?_
  rw [reachAll?_cons, blank, reach?_set_cons, if_pos (by rw [CharSet.contains_blank]; rfl)]
  refine reaches_shortest_char (f := fun _ ks => ks) hw ?_
  rw [reach?_char_cons, if_pos rfl]
  exact reaches_some ⟨rfl, by simp [hκ, hκ', hname], by simp [hκ', harguments],
    by simp [hκ, hκ']⟩

/-! ## Texts -/

/-- The declarations and statements that end before a body could start. -/
inductive Bodiless
  | rust (result : Option String)
  | javascript
  | typescript
  | java (exceptions : String)
  deriving DecidableEq, Repr

namespace Bodiless

def language : Bodiless → Language
  | rust _ => .rust
  | javascript => .javascript
  | typescript => .typescript
  | java _ => .java

/-- The finished declaration or statement. -/
def text : Bodiless → Callable → String
  | rust result, d =>
    "fn " ++ d.name ++ "(" ++ d.arguments ++ ")" ++ KeywordGrammar.rust.resultText result ++ ";\n"
  | javascript, d | typescript, d => "const " ++ d.name ++ " = (" ++ d.arguments ++ ");\n"
  | java exceptions, d =>
    "  void " ++ d.name ++ "(" ++ d.arguments ++ ") throws " ++ exceptions ++ ";\n"

/-- A declaration of the same language with a body that does nothing. -/
def bodyText : Bodiless → Callable → String
  | rust _, d => "fn " ++ d.name ++ "(" ++ d.arguments ++ ") \x7b\n\x7d\n"
  | javascript, d | typescript, d =>
    "const " ++ d.name ++ " = (" ++ d.arguments ++ ") => \x7b\n\x7d;\n"
  | java _, d => "  void " ++ d.name ++ "(" ++ d.arguments ++ ") \x7b\n\x7d\n"

/-- What is read of a finished declaration and the one after it. -/
def swallowed : Bodiless → Callable → Callable → Signature
  | rust (some result), d, d' =>
    ⟨d.name, Text.collapse d.arguments,
      Text.collapse (result ++ ";\nfn " ++ d'.name ++ "(" ++ d'.arguments ++ ")")⟩
  | rust none, d, d' =>
    ⟨d.name, Text.collapse (d.arguments ++ ");\nfn " ++ d'.name ++ "(" ++ d'.arguments), ""⟩
  | javascript, d, d' | typescript, d, d' =>
    ⟨d.name, Text.collapse (d.arguments ++ ");\nconst " ++ d'.name ++ " = (" ++ d'.arguments), ""⟩
  | java _, d, _ => d.signature

/-- A result or exceptions that start no body. -/
def Allowed : Bodiless → Prop
  | rust result => ∀ r ∈ result, '\x00' ∉ r.toList ∧ '\x7b' ∉ r.toList
  | javascript | typescript => True
  | java exceptions => '\x00' ∉ exceptions.toList ∧ '\x7b' ∉ exceptions.toList

variable {f : Bodiless} {d d' : Callable} {c : Cursor}

/-- What a match leaves over: the rest of the body. -/
def leftover : Bodiless → List Char
  | rust _ | java _ => ['\n', '\x7d', '\n']
  | javascript | typescript => [' ', '\x7b', '\n', '\x7d', ';', '\n']

/-- A match takes all of a text that is to be swallowed. -/
def Swallows (f : Bodiless) (d d' : Callable) : Prop :=
  Reaches (fun e ks => e.rest = f.leftover ∧
      Extraction.signature? (builtin f.language).family
        ⟨.start (f.text d ++ f.bodyText d').toList, e.offset, ks⟩ = some (f.swallowed d d'))
    ((builtin f.language).regex.reach? accept (.start (f.text d ++ f.bodyText d').toList) [])

theorem swallows_rust_result {r : String} (hr : '\x7b' ∉ r.toList) (hd : d.Plain)
    (hd' : d'.Plain) : Swallows (rust (some r)) d d' := by
  let result := r ++ ";\nfn " ++ d'.name ++ "(" ++ d'.arguments ++ ")"
  have hbrace : '\x7b' ∉ result.toList := by
    have hn : '\x7b' ∉ d'.name.toList := hd'.name.isWord.not_mem (by decide)
    have ha := hd'.notMem (x := '\x7b') (by decide)
    simp [result, hr, hn, ha]
  have ht : ((rust (some r)).text d ++ (rust (some r)).bodyText d').toList = ['f', 'n'] ++ ' ' ::
      (d.name.toList ++ '(' :: (d.arguments.toList ++ ')' ::
        (' ' :: '-' :: '>' :: ' ' :: result.toList ++ ' ' :: '\x7b' :: ['\n', '\x7d', '\n']))) := by
    simp [text, bodyText, KeywordGrammar.resultText, KeywordGrammar.arrow, result]
  obtain ⟨e, ks, he, h⟩ := reaches_rust (o := 0) (b := none) (v := ['\n', '\x7d', '\n']) rfl
    hd.name (hd.notMem (by decide)) (Or.inr ⟨rfl, hbrace⟩)
  rw [Swallows, ht]
  refine ⟨e, ks, he, h.rest, (h.keywordSignature?_eq hd.name.isWord).trans ?_⟩
  rw [String.ofList_toList, String.ofList_toList, String.ofList_toList, swallowed]

theorem swallows_rust (hd : d.Plain) (hd' : d'.Plain) : Swallows (rust none) d d' := by
  let passed := "\nfn ".toList ++ d'.name.toList ++ '(' :: d'.arguments.toList
  have hpassed : ')' ∉ passed := by
    have hn : ')' ∉ d'.name.toList := hd'.name.isWord.not_mem (by decide)
    have ha := hd'.notMem (x := ')') (by decide)
    simp [passed, hn, ha]
  have ht : ((rust none).text d ++ (rust none).bodyText d').toList = ['f', 'n'] ++ ' ' ::
      (d.name.toList ++ '(' :: ((d.arguments.toList ++ ')' :: ';' :: passed) ++ ')' ::
        ' ' :: '\x7b' :: ['\n', '\x7d', '\n'])) := by
    simp [text, bodyText, KeywordGrammar.resultText, passed]
  have ha : String.ofList (d.arguments.toList ++ ')' :: ';' :: passed) =
      d.arguments ++ ");\nfn " ++ d'.name ++ "(" ++ d'.arguments := by
    rw [← String.toList_inj]
    simp [passed]
  obtain ⟨e, ks, he, h⟩ := reaches_rust_over (o := 0) (b := none) (v := ['\n', '\x7d', '\n']) rfl
    hd.name (hd.notMem (by decide)) hpassed
  rw [Swallows, ht]
  refine ⟨e, ks, he, h.rest, (h.keywordSignature?_eq hd.name.isWord).trans ?_⟩
  rw [String.ofList_toList, ha]
  rfl

theorem swallows_assignment (hf : f = javascript ∨ f = typescript) (hd : d.Plain)
    (hd' : d'.Plain) : Swallows f d d' := by
  let passed := "\nconst ".toList ++ d'.name.toList ++ " = (".toList ++ d'.arguments.toList
  have hpassed : ')' ∉ passed := by
    have hn : ')' ∉ d'.name.toList := hd'.name.isWord.not_mem (by decide)
    have ha := hd'.notMem (x := ')') (by decide)
    simp [passed, hn, ha]
  have ht : (f.text d ++ f.bodyText d').toList = ['c', 'o', 'n', 's', 't'] ++ ' ' ::
      (d.name.toList ++ ' ' :: '=' :: ' ' :: '(' :: ((d.arguments.toList ++ ')' :: ';' :: passed) ++
        ')' :: ' ' :: '=' :: '>' :: [' ', '\x7b', '\n', '\x7d', ';', '\n'])) := by
    rcases hf with rfl | rfl <;> simp [text, bodyText, passed]
  have ha : String.ofList (d.arguments.toList ++ ')' :: ';' :: passed) =
      d.arguments ++ ");\nconst " ++ d'.name ++ " = (" ++ d'.arguments := by
    rw [← String.toList_inj]
    simp [passed]
  obtain ⟨e, ks, he, h⟩ := reaches_assignment_over (o := 0) (b := none)
    (v := [' ', '\x7b', '\n', '\x7d', ';', '\n']) rfl hd.name (hd.notMem (by decide)) hpassed
  have hs := h.arrowSignature?_eq (c := ⟨0, none, (f.text d ++ f.bodyText d').toList⟩)
    hd.name.isWord (by rw [String.ofList_toList]; exact hd.name_not_mem)
  rw [String.ofList_toList, ha] at hs
  rw [← ht] at he
  rcases hf with rfl | rfl <;> exact ⟨e, ks, he, h.rest, hs⟩

theorem swallows_java {exceptions : String} (he : '\x7b' ∉ exceptions.toList) (hd : d.Plain)
    (hd' : d'.Plain) : Swallows (java exceptions) d d' := by
  let passed := exceptions.toList ++ ";\n  void ".toList ++ d'.name.toList ++ '(' ::
    (d'.arguments.toList ++ ") ".toList)
  have hpassed : '\x7b' ∉ passed := by
    have hn : '\x7b' ∉ d'.name.toList := hd'.name.isWord.not_mem (by decide)
    have ha := hd'.notMem (x := '\x7b') (by decide)
    simp [passed, he, hn, ha]
  have ht : ((java exceptions).text d ++ (java exceptions).bodyText d').toList = ' ' :: ' ' ::
      (['v', 'o', 'i', 'd'] ++ ' ' :: (d.name.toList ++ '(' :: (d.arguments.toList ++ ')' :: ' ' ::
        (['t', 'h', 'r', 'o', 'w', 's'] ++ ' ' ::
          (passed ++ '\x7b' :: ['\n', '\x7d', '\n']))))) := by
    simp [text, bodyText, passed]
  obtain ⟨e, ks, he, h⟩ := reaches_java_throws (o := 0) (b := none) (v := ['\n', '\x7d', '\n'])
    hd.name.isWord (hd.notMem (by decide)) hpassed
  have hs := h.modifierSignature?_eq
    (c := ⟨0, none, ((java exceptions).text d ++ (java exceptions).bodyText d').toList⟩)
    hd.name.isWord (by rw [String.ofList_toList]; exact hd.name_not_mem)
  rw [String.ofList_toList, String.ofList_toList] at hs
  rw [← ht] at he
  exact ⟨e, ks, he, h.rest, hs⟩

theorem swallows (hf : f.Allowed) (hd : d.Plain) (hd' : d'.Plain) : Swallows f d d' := by
  cases f with
  | rust result =>
    cases result with
    | none => exact swallows_rust hd hd'
    | some r => exact swallows_rust_result (hf r rfl).2 hd hd'
  | javascript => exact swallows_assignment (Or.inl rfl) hd hd'
  | typescript => exact swallows_assignment (Or.inr rfl) hd hd'
  | java exceptions => exact swallows_java hf.2 hd hd'

theorem refuses_leftover {v w : List Char} {y : Char} (h : f.leftover = v ++ y :: w) :
    Refuses ((builtin f.language).regex.reach? accept) (y :: w) := by
  have hy : y ∈ f.leftover := by simp [h]
  have hw : ∀ x ∈ w, x ∈ f.leftover := fun x hx => by simp [h, hx]
  cases f with
  | rust result =>
    refine KeywordGrammar.refuses_of_head? (g := .rust) fun x hx => ?_
    obtain rfl : y = x := by simpa using hx
    exact hy
  | javascript | typescript =>
    have hl : (leftover javascript).any isNameChar = false := by decide
    refine refuses_arrow fun x hx => ?_
    obtain rfl : y = x := by simpa using hx
    exact eq_false_of_ne_true (List.any_eq_false.mp hl y hy)
  | java exceptions =>
    refine TypeFirstGrammar.refuses_body (g := .java) (fun x hx => ?_) fun x u hu hs => ?_
    · obtain rfl : y = x := by simpa using hx
      exact hy
    · obtain ⟨_, rfl⟩ := List.cons.inj hu
      exact absurd (hw ' ' (List.mem_of_head? hs)) (by simp [leftover])

theorem noNul (hf : f.Allowed) (hd : d.Plain) (hd' : d'.Plain) :
    '\x00' ∉ (f.text d ++ f.bodyText d').toList := by
  have hn : '\x00' ∉ d.name.toList := hd.name.isWord.not_mem (by decide)
  have hn' : '\x00' ∉ d'.name.toList := hd'.name.isWord.not_mem (by decide)
  cases f with
  | rust result =>
    cases result with
    | none =>
      simp [text, bodyText, KeywordGrammar.resultText, hn, hn', hd.noNul, hd'.noNul]
    | some r =>
      simp [text, bodyText, KeywordGrammar.resultText, KeywordGrammar.arrow, hn, hn', hd.noNul,
        hd'.noNul, (hf r rfl).1]
  | javascript | typescript => simp [text, bodyText, hn, hn', hd.noNul, hd'.noNul]
  | java exceptions => simp [text, bodyText, hn, hn', hd.noNul, hd'.noNul, hf.1]

/-- The declaration after a finished one is no signature of its own, except that in Java it may look
like the finished one. -/
theorem signature_eq_swallowed_iff (hd' : d'.Plain) :
    d'.signature = f.swallowed d d' ↔ f.language = .java ∧ d'.signature = d.signature := by
  have harguments {s : String} (h : ')' ∈ s.toList) : d'.signature.arguments ≠ Text.collapse s := by
    intro he
    have hm := (Text.mem_collapse (by decide) (by decide)).mpr h
    rw [← he] at hm
    exact hd'.notMem (by decide) ((Text.mem_collapse (by decide) (by decide)).mp hm)
  have hresult {s : String} (h : ';' ∈ s.toList) : d'.signature.result ≠ Text.collapse s := by
    intro he
    have hm := (Text.mem_collapse (by decide) (by decide)).mpr h
    rw [← he] at hm
    cases hm
  cases f with
  | rust result =>
    refine iff_of_false (fun he => ?_) fun h => by cases h.1
    cases result with
    | none => exact harguments (by simp) (congrArg Signature.arguments he)
    | some r => exact hresult (by simp) (congrArg Signature.result he)
  | javascript | typescript =>
    refine iff_of_false (fun he => ?_) fun h => by cases h.1
    exact harguments (by simp) (congrArg Signature.arguments he)
  | java exceptions => exact (and_iff_right rfl).symm

/-- A finished declaration takes the next one with it. -/
theorem extract_bodiless (hf : f.Allowed) (hd : d.Plain) (hd' : d'.Plain) :
    (builtin f.language).extract (f.text d ++ f.bodyText d') = .ok [f.swallowed d d'] ∧
      (d'.signature ∈ [f.swallowed d d'] ↔
        f.language = .java ∧ d'.signature = d.signature) := by
  refine ⟨?_, ?_⟩
  · exact Rule.extract_eq_singleton (by cases f <;> rfl) (noNul hf hd hd') (swallows hf hd hd')
      fun v y w h => refuses_leftover h
  · rw [List.mem_singleton, signature_eq_swallowed_iff hd']

theorem extract_bodiless_typescript : (builtin .typescript).extract
      "const limit = (2);\nconst add = (a, b) => \x7b\n\x7d;\n" =
        .ok [⟨"limit", "2); const add = (a, b", ""⟩] ∧
    ⟨"add", "a, b", ""⟩ ∉ [(⟨"limit", "2); const add = (a, b", ""⟩ : Signature)] := by
  have hd : Callable.Plain ⟨"limit", "2"⟩ := by decide
  have hd' : Callable.Plain ⟨"add", "a, b"⟩ := by decide
  have h := extract_bodiless (f := typescript) trivial hd hd'
  exact ⟨h.1, fun hm => by cases (h.2.mp hm).1⟩

/-- A function without a body hides the one after it. -/
theorem extract_bodiless_rust : Callable.Plain ⟨"a", ""⟩ ∧ Callable.Plain ⟨"b", ""⟩ ∧
    (builtin .rust).extract "fn a();\nfn b() \x7b\n\x7d\n" = .ok [⟨"a", "); fn b(", ""⟩] :=
  ⟨by decide, by decide, by decide +kernel⟩

end Bodiless

end Rule.Builtin

end CodeOutline
