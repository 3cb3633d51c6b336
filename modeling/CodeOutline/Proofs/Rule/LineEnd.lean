import CodeOutline.Proofs.Regex.LineEndMode
import CodeOutline.Proofs.Rule.Boundary

/-! # Line ends of source text

No built-in rule tells line feeds from carriage returns with line feeds. Names never have a line end
in them, and arguments and results are collapsed, so a source text has the same signatures with
either kind of line ends.
-/

namespace CodeOutline

open Regex

/-- The groups of a family whose texts are collapsed. -/
def Family.looseGroups : Family → List String
  | .keyword => ["args", "ret"]
  | .colonAnnotated => ["args", "ret"]
  | .returnTypeFirst => ["args"]
  | .arrow => ["fn_args", "fn_ret", "arrow_args", "arrow_ret", "method_args"]
  | .modifier => ["args"]

/-! ## Readings -/

section Readings

variable {loose : List String} {m m' : Match} {name : String}

theorem group?_cases (h : List.Forall₂ (Blended loose) m.captures m'.captures) (name : String) :
    (m.group? name = none ∧ m'.group? name = none) ∨
      ∃ t t', m.group? name = some t ∧ m'.group? name = some t' ∧
        (t = t' ∨ (name ∈ loose ∧ Text.words t = Text.words t')) := by
  rw [Match.group?, Match.group?]
  rcases rel_cases (rel_find? (fun _ _ h => h.1) h name) with ⟨hm, hm'⟩ | ⟨κ, κ', hm, hm', h⟩
  · rw [hm, hm']
    exact Or.inl ⟨rfl, rfl⟩
  · have hname : κ.name = name := by simpa using List.find?_some hm
    rw [Blended, hname] at h
    rw [hm, hm']
    exact Or.inr ⟨κ.text, κ'.text, rfl, rfl, h.2⟩

theorem hasGroup_eq_of_blended (h : List.Forall₂ (Blended loose) m.captures m'.captures)
    (name : String) : Extraction.hasGroup m name = Extraction.hasGroup m' name := by
  rw [Extraction.hasGroup_eq, Extraction.hasGroup_eq]
  rcases group?_cases h name with ⟨hm, hm'⟩ | ⟨t, t', hm, hm', _⟩
  · rw [hm, hm']
  · rw [hm, hm']
    rfl

theorem groupText_eq_of_blended (h : List.Forall₂ (Blended loose) m.captures m'.captures)
    (hn : name ∉ loose) : Extraction.groupText m name = Extraction.groupText m' name := by
  rw [Extraction.groupText, Extraction.groupText]
  rcases group?_cases h name with ⟨hm, hm'⟩ | ⟨t, t', hm, hm', rfl | ⟨hl, _⟩⟩
  · rw [hm, hm']
  · rw [hm, hm']
  · exact absurd hl hn

theorem collapse_groupText_eq_of_blended
    (h : List.Forall₂ (Blended loose) m.captures m'.captures) (name : String) :
    Text.collapse (Extraction.groupText m name) =
      Text.collapse (Extraction.groupText m' name) := by
  rw [Extraction.groupText, Extraction.groupText]
  rcases group?_cases h name with ⟨hm, hm'⟩ | ⟨t, t', hm, hm', rfl | ⟨_, hw⟩⟩
  · rw [hm, hm']
  · rw [hm, hm']
  · simp only [hm, hm', Option.getD_some, Text.collapse, String.toList_ofList,
      Text.collapseChars, hw]

theorem ofTexts?_congr (name : String) {arguments arguments' result result' : String}
    (ha : Text.collapse arguments = Text.collapse arguments')
    (hr : Text.collapse result = Text.collapse result') :
    Signature.ofTexts? name arguments result = Signature.ofTexts? name arguments' result' := by
  rw [Signature.ofTexts?, Signature.ofTexts?, ha, hr]

theorem signature?_eq_of_blended (family : Family)
    (h : List.Forall₂ (Blended family.looseGroups) m.captures m'.captures) :
    Extraction.signature? family m = Extraction.signature? family m' := by
  have hcollapse := collapse_groupText_eq_of_blended h
  have hhas := hasGroup_eq_of_blended h
  have htext := fun name (hn : name ∉ family.looseGroups) => groupText_eq_of_blended h hn
  cases family with
  | keyword =>
    rw [Extraction.signature?, Extraction.keywordSignature?, Extraction.keywordSignature?,
      htext "name" (by decide)]
    exact ofTexts?_congr _ (hcollapse "args") (hcollapse "ret")
  | colonAnnotated =>
    rw [Extraction.signature?, Extraction.keywordSignature?, Extraction.keywordSignature?,
      htext "name" (by decide)]
    exact ofTexts?_congr _ (hcollapse "args") (hcollapse "ret")
  | returnTypeFirst =>
    rw [Extraction.signature?, Extraction.returnTypeFirstSignature?,
      Extraction.returnTypeFirstSignature?, htext "name" (by decide), htext "ret" (by decide)]
    simp only [ofTexts?_congr _ (hcollapse "args") rfl]
  | modifier =>
    rw [Extraction.signature?, Extraction.modifierSignature?, Extraction.modifierSignature?,
      htext "name" (by decide)]
    simp only [ofTexts?_congr _ (hcollapse "args") rfl]
  | arrow =>
    rw [Extraction.signature?, Extraction.arrowSignature?, Extraction.arrowSignature?,
      hhas "fn_name", hhas "arrow_name", htext "fn_name" (by decide),
      htext "arrow_name" (by decide), htext "method_name" (by decide)]
    dsimp only
    split
    · dsimp only
      rw [ofTexts?_congr _ (hcollapse "fn_args") (hcollapse "fn_ret")]
    · split
      · dsimp only
        rw [ofTexts?_congr _ (hcollapse "arrow_args") (hcollapse "arrow_ret")]
      · dsimp only
        rw [ofTexts?_congr _ (hcollapse "method_args") rfl]

end Readings

/-! ## Rules -/

namespace Rule.Builtin

variable {l : Language} {loose : List String}

theorem complement_parenthesis :
    CharSet.complement ⟨[(0x29, 0x29)]⟩ = ⟨[(0, 0x28), (0x2A, 0x10FFFF)]⟩ :=
  CharSet.complement_eq (by decide) rfl

theorem complement_greater :
    CharSet.complement ⟨[(0x3E, 0x3E)]⟩ = ⟨[(0, 0x3D), (0x3F, 0x10FFFF)]⟩ :=
  CharSet.complement_eq (by decide) rfl

theorem complement_equals :
    CharSet.complement ⟨[(0x3D, 0x3D)]⟩ = ⟨[(0, 0x3C), (0x3E, 0x10FFFF)]⟩ :=
  CharSet.complement_eq (by decide) rfl

theorem complement_result :
    CharSet.complement ⟨[(0x28, 0x29), (0x3B, 0x3B), (0x3D, 0x3D), (0x7B, 0x7B), (0x7D, 0x7D)]⟩ =
      ⟨[(0, 0x27), (0x2A, 0x3A), (0x3C, 0x3C), (0x3E, 0x7A), (0x7C, 0x7C), (0x7E, 0x10FFFF)]⟩ :=
  CharSet.complement_eq (by decide) rfl

theorem avoids_typeChar : (set typeChar).avoids lineEnds = true := by
  have h : ∀ x ∈ lineEnds, typeChar.contains x = false := by
    intro x hx
    simp only [lineEnds, List.mem_cons, List.not_mem_nil, or_false] at hx
    rcases hx with rfl | rfl
    · rw [typeChar, CharSet.contains_union, CharSet.contains_word_of_ascii (by decide)]
      decide
    · rw [typeChar, CharSet.contains_union, CharSet.contains_word_of_ascii (by decide)]
      decide
  rw [avoids, List.all_eq_true]
  intro x hx
  rw [h x hx]
  rfl

/-- The analysis of every rule but one tells that no match starts with a line end. -/
theorem mode?_regex (hl : l ≠ .java) :
    (builtin l).regex.mode? (builtin l).family.looseGroups .plain = some ⟨true, true, false⟩ := by
  cases l with
  | python => rfl
  | javascript =>
    change arrowRegex.mode? _ _ = _
    rw [arrowRegex, untilParenthesis, complement_parenthesis, complement_equals, complement_result]
    rfl
  | typescript =>
    change arrowRegex.mode? _ _ = _
    rw [arrowRegex, untilParenthesis, complement_parenthesis, complement_equals, complement_result]
    rfl
  | rust => rfl
  | go =>
    change goRegex.mode? _ _ = _
    rw [goRegex, untilParenthesis, complement_parenthesis]
    rfl
  | dart => rfl
  | java => exact absurd rfl hl
  | kotlin =>
    change kotlinRegex.mode? _ _ = _
    rw [kotlinRegex, untilParenthesis, complement_parenthesis, complement_greater]
    rfl
  | swift =>
    change swiftRegex.mode? _ _ = _
    rw [swiftRegex, untilParenthesis, complement_parenthesis]
    rfl
  | c =>
    change cRegex.mode? _ _ = _
    rw [cRegex, untilParenthesis, complement_parenthesis]
    rfl
  | cpp =>
    change cppRegex.mode? _ _ = _
    rw [cppRegex, untilParenthesis, complement_parenthesis]
    rfl
  | php =>
    change phpRegex.mode? _ _ = _
    rw [phpRegex, untilParenthesis, complement_parenthesis]
    rfl

theorem consumes_regex (l : Language) : (builtin l).regex.consumes = true := by
  cases l <;> rfl

/-! ### A blank first -/

/-- What comes after the type in Java. -/
def javaTail : List Regex :=
  [someBlanks, .group "name" wordOf, blanks, openParenthesis, .group "args" untilParenthesis,
    closeParenthesis, blanks,
    opt (concat (letters ['t', 'h', 'r', 'o', 'w', 's'] ++ [blank, shortest])), openBrace]

/-- What comes after the modifier in Java. -/
def javaBody : Regex :=
  .seq (.plus true (.char ' ')) (.seq (.plus true (.set typeChar)) (concat javaTail))

theorem javaRegex_eq : javaRegex = .seq (choice [concat (letters ['p', 'u', 'b', 'l', 'i', 'c']),
    concat (letters ['p', 'r', 'o', 't', 'e', 'c', 't', 'e', 'd']),
    concat (letters ['p', 'r', 'i', 'v', 'a', 't', 'e']),
    concat (letters ['s', 't', 'a', 't', 'i', 'c']), blank]) javaBody := rfl

theorem mode?_javaBody : javaBody.mode? ["args"] .plain = some ⟨true, true, false⟩ := by
  have htail : (concat javaTail).mode? ["args"] .plain = some ⟨false, true, false⟩ := by
    rw [javaTail, untilParenthesis, complement_parenthesis]
    rfl
  have htype : (plus true (.set typeChar)).mode? ["args"] ⟨false, true, false⟩ =
      some ⟨true, true, false⟩ := by
    rw [mode?, if_pos avoids_typeChar]
    rfl
  rw [javaBody, mode?, mode?, htail, Option.bind_some, htype]
  rfl

/-- Only after the blank that a match may start with does it matter what comes next. -/
theorem starts_javaRegex : Starts (Blended ["args"]) (Ends (Blended ["args"]) Whole)
    (javaRegex.reach? accept) (javaRegex.reach? accept) := by
  have hbody := fun b b' => meets_reach? mode?_javaBody (meets_accept (Blended ["args"]) b b')
  rw [javaRegex_eq, reach?_seq]
  have hword : ∀ r : Regex, r.mode? ["args"] ⟨true, true, false⟩ = some ⟨true, true, false⟩ →
      Starts (Blended ["args"]) (Ends (Blended ["args"]) Whole)
        (r.reach? (javaBody.reach? accept)) (r.reach? (javaBody.reach? accept)) :=
    fun r hr => starts_of_meets (fun b b' => meets_reach? hr (hbody b b')) rfl
  refine (hword _ rfl).alt ((hword _ rfl).alt ((hword _ rfl).alt ((hword _ rfl).alt ?_)))
  exact starts_set rfl hbody rfl

theorem searchInStep_regex (l : Language) :
    SearchInStep (builtin l).regex (Blended (builtin l).family.looseGroups) Whole := by
  by_cases hl : l = .java
  · subst hl
    exact searchInStep_of_starts (consumes_regex .java) starts_javaRegex
  · exact searchInStep_of_mode? (consumes_regex l) (mode?_regex hl) rfl

/-! ## Source text -/

theorem signatures_crlfChars (l : Language) (t : List Char) :
    (builtin l).signatures (Text.crlfChars t) = (builtin l).signatures t := by
  have hr := consumes_regex l
  have hstart : Whole (.start t) (.start (Text.crlfChars t)) := ⟨rfl, rfl⟩
  rw [Rule.signatures, Rule.signatures, allMatches_eq_matchesFrom hr, allMatches_eq_matchesFrom hr,
    filterMap_matchesFrom (searchInStep_regex l)
      (fun m m' hm => signature?_eq_of_blended (builtin l).family hm) (fun c c' hc hend => ?_)
      hstart, List.append_nil]
  have hend' : c'.rest = [] := by
    rw [hc.rest, hend]
    rfl
  rw [matchesFrom_of_end hr hend', List.filterMap_nil]

/-- Longer line ends leave the signatures of a source text as they are. -/
theorem extract_crlf (l : Language) {content : String} (h : '\x00' ∉ content.toList) :
    ∃ signatures, (builtin l).extract content = .ok signatures ∧
      (builtin l).extract (Text.crlf content) = .ok signatures := by
  have hl : (Text.crlf content).toList = Text.crlfChars content.toList := by
    rw [Text.crlf, String.toList_ofList]
  have h' : '\x00' ∉ (Text.crlf content).toList := by
    rw [hl, Text.mem_crlfChars (by decide)]
    exact h
  refine ⟨_, Rule.extract_eq_ok h, ?_⟩
  rw [Rule.extract_eq_ok h', hl, signatures_crlfChars]

theorem extract_crlf_java :
    '\x00' ∉ ("class A \x7b\n static int f(int a,\nint b)\n \x7b \x7d\n\x7d" : String).toList ∧
      ∃ signatures,
        (builtin .java).extract "class A \x7b\n static int f(int a,\nint b)\n \x7b \x7d\n\x7d" =
            .ok signatures ∧
          (builtin .java).extract
            (Text.crlf "class A \x7b\n static int f(int a,\nint b)\n \x7b \x7d\n\x7d") =
              .ok signatures := by
  have h : '\x00' ∉
      ("class A \x7b\n static int f(int a,\nint b)\n \x7b \x7d\n\x7d" : String).toList := by
    decide
  exact ⟨h, extract_crlf .java h⟩

end Rule.Builtin

end CodeOutline
