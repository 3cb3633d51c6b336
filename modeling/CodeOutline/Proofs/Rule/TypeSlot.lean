import CodeOutline.Proofs.Rule.Declaration
import CodeOutline.Proofs.Rule.Heading
import CodeOutline.Proofs.Rule.TypeFirst

/-! # Types of methods

A match of the rule of Java stands at a heading with a type, but the type is not captured. So a
match is dropped when its name is a control keyword, and not when its type is one: of a statement
that creates an object and has a body after it, the name of the class is reported.
-/

namespace CodeOutline

open Regex
open Heading (Free)

/-- What is reported of a method, without its type. -/
def Heading.method (h : Heading) : Signature :=
  ⟨String.ofList h.name, String.ofList (Text.collapseChars h.arguments), ""⟩

namespace Rule.Builtin

variable {m : Match} {g : Heading} {t : List Char} {s : Signature} {n r : List Char}

/-- A match of the rule of Java stands at a heading, with a type after a space. -/
structure MethodAt (t : List Char) (m : Match) (h : Heading) : Prop where
  stands : StandsAt t wordOf m h
  start : m.start.offset ≤ h.start
  type_ne : h.type ≠ []
  type : ∀ x ∈ h.type, typeChar.contains x = true
  before : h.before.getLast? = some ' '

theorem spells_spaces {u : List Char} (h : Spells (.plus true (.char ' ')) u) :
    ∃ v, u = v ++ [' '] := by
  obtain ⟨hne, hu⟩ := spells_plus_set.mp h
  obtain ⟨v, x, rfl⟩ := (List.eq_nil_or_concat u).resolve_left hne
  have hx := hu x (by simp)
  rw [CharSet.contains_singleton, beq_iff_eq] at hx
  exact ⟨v, by simp [hx]⟩

theorem exists_methodAt (hm : m ∈ javaRegex.allMatches t) : ∃ h, MethodAt t m h := by
  obtain ⟨hc, d, hd, hstop⟩ := mem_onward_of_mem_allMatches hm
  obtain ⟨u, htext, hoff, -⟩ := Cursor.exists_eq_of_mem_onward_start hc
  have ho := List.mem_of_head? hd
  obtain ⟨v, e₁, hmodifier, -, ho⟩ := exists_of_mem_outcomes_cons rfl ho
  obtain ⟨w, e₂, hspaces, hs, ho⟩ := exists_of_mem_outcomes_cons rfl ho
  obtain ⟨type, e₃, htype, hst, ho⟩ := exists_of_mem_outcomes_cons rfl ho
  obtain ⟨w, rfl⟩ := spells_spaces hs
  obtain ⟨hne, hty⟩ := spells_plus_set.mp hst
  have hrest : t = (u ++ (v ++ (w ++ [' ']))) ++ (type ++ e₃.rest) := by
    simp [htext, hmodifier.rest, hspaces.rest, htype.rest]
  have hplace : e₃.offset = (u ++ (v ++ (w ++ [' ']))).length + type.length := by
    rw [htype.offset_eq, hspaces.offset_eq, hmodifier.offset_eq, hoff]
    simp [Nat.add_assoc]
  obtain ⟨h, hb, ht, hat, -⟩ := exists_standsAt wordOf rfl rfl hrest hplace hstop ho
  refine ⟨h, hat, ?_, ?_, ?_, ?_⟩
  · simp [Heading.start, hb, hoff]
  · rwa [ht]
  · rwa [ht]
  · rw [hb, ← List.append_assoc, ← List.append_assoc, List.getLast?_concat]

/-- A match is reported unless its name is a control keyword, whatever its type is. -/
theorem MethodAt.modifierSignature?_eq (h : MethodAt t m g) :
    Extraction.modifierSignature? m = if Free g.name then some g.method else none := by
  have hn : IsWord g.name := spells_wordOf h.stands.spells
  have hk : Extraction.isControlKeyword (String.ofList g.name) = true ↔ ¬ Free g.name := by
    rw [Extraction.isControlKeyword, hn.trim_eq, List.contains_iff_mem, Free, not_not]
  simp only [Extraction.modifierSignature?, groupText_of_piece h.stands.name,
    groupText_of_piece h.stands.arguments, Heading.namePiece, Heading.argumentsPiece, hk,
    hn.ofTexts?_eq, collapse_ofList]
  by_cases hf : Free g.name
  · rw [if_pos hf, if_neg (not_not.mpr hf)]
    rfl
  · rw [if_neg hf, if_pos hf]

theorem exists_headings_java (t : List Char) : ∃ headings : List Heading,
    List.Forall₂ (MethodAt t) (javaRegex.allMatches t) headings ∧
      (builtin .java).signatures t =
        (headings.filter fun g => Free g.name).map Heading.method := by
  change ∃ headings : List Heading, _ ∧
    (javaRegex.allMatches t).filterMap Extraction.modifierSignature? = _
  generalize hms : javaRegex.allMatches t = ms
  have hall : ∀ m ∈ ms, ∃ g, MethodAt t m g := fun m hm => exists_methodAt (hms ▸ hm)
  clear hms
  induction ms with
  | nil => exact ⟨[], .nil, rfl⟩
  | cons m ms ih =>
    obtain ⟨⟨g, hg⟩, hms⟩ := List.forall_mem_cons.mp hall
    obtain ⟨headings, hat, hs⟩ := ih hms
    refine ⟨g :: headings, .cons hg hat, ?_⟩
    by_cases hf : Free g.name <;> simp [hg.modifierSignature?_eq, hf, hs]

/-! ## Statements -/

/-- The heading of a statement on a line of its own. -/
def statement (r n : List Char) : Heading :=
  ⟨[' ', ' '], r, [' '], n, [], [')', ' ', '\x7b']⟩

theorem mem_of_getLast?_append {u v : List Char} {x : Char} (hv : v ≠ [])
    (hx : x ∈ (u ++ v).getLast?) : x ∈ v := by
  rw [List.getLast?_append_of_ne_nil _ hv] at hx
  exact List.mem_of_getLast? hx

theorem isBlank_of_getLast? {u w : List Char} (hw : IsWord w) :
    ∀ x ∈ (u ++ w).getLast?, Text.isBlank x = false :=
  fun x hx => isBlank_of_isNameChar (hw.2 x (mem_of_getLast?_append hw.1 hx))

/-- A match in a statement stands at the statement: its parts are runs that end one before the
other. -/
theorem MethodAt.eq_statement (hr : IsWord r) (hn : IsWord n)
    (h : MethodAt (statement r n).text m g) : g = statement r n := by
  obtain ⟨before, type, gap, name, space, after⟩ := g
  obtain ⟨⟨htext, ⟨hgap_ne, hgap, hspace⟩, hname, -, -, -⟩, -, hne, htype, hbefore⟩ := h
  dsimp only at hgap_ne hgap hspace hname hne htype hbefore
  obtain ⟨hname_ne, hname⟩ := spells_wordOf hname
  have hparts : ([' ', ' '] ++ r ++ [' '] ++ n) ++ '(' :: [')', ' ', '\x7b'] =
      (before ++ type ++ gap ++ name ++ space) ++ '(' :: after := by
    simpa [Heading.text, statement] using htext.symm
  have hopen : '(' ∉ [' ', ' '] ++ r ++ [' '] ++ n := by
    simp [hr.not_mem (x := '(') (by decide), hn.not_mem (x := '(') (by decide)]
  obtain ⟨hfront, -, rfl⟩ :=
    (List.append_cons_inj_of_notMem hopen (by decide)).mp hparts
  obtain ⟨hnamed, rfl⟩ := eq_of_run (hfront.symm.trans (List.append_nil _).symm)
    (isBlank_of_getLast? ⟨hname_ne, hname⟩) hspace (isBlank_of_getLast? hn) (by simp)
  have hgapped : ∀ x ∈ (before ++ type ++ gap).getLast?, isNameChar x = false := fun x hx =>
    isNameChar_of_isBlank (hgap x (mem_of_getLast?_append hgap_ne hx))
  have hspaced : ∀ x ∈ ([' ', ' '] ++ r ++ [' ']).getLast?, isNameChar x = false := by
    rw [List.getLast?_concat]
    rintro x ⟨⟩
    rfl
  obtain ⟨hspaced, rfl⟩ := eq_of_run hnamed hgapped hname hspaced hn.2
  -- All blanks of the text are spaces, which no type has.
  have hsolid : ∀ x ∈ (before ++ type).getLast?, Text.isBlank x = false := by
    intro x hx
    have hx := mem_of_getLast?_append hne hx
    have hspace : x ≠ ' ' := by
      rintro rfl
      exact absurd (htype _ hx) (Bool.eq_false_iff.mp contains_typeChar_space)
    have hmem : x ∈ [' ', ' '] ++ r ++ [' '] :=
      hspaced ▸ List.mem_append_left _ (List.mem_append_right _ hx)
    have hword : x ∈ r := by simpa [hspace] using hmem
    exact isBlank_of_isNameChar (hr.2 x hword)
  obtain ⟨htyped, rfl⟩ := eq_of_run hspaced hsolid hgap (isBlank_of_getLast? hr) blank_space
  have hindent : ∀ x ∈ before.getLast?, typeChar.contains x = false := by
    rw [hbefore]
    rintro x ⟨⟩
    exact contains_typeChar_space
  have hspace : ∀ x ∈ [' ', ' '].getLast?, typeChar.contains x = false := by
    rintro x ⟨⟩
    exact contains_typeChar_space
  obtain ⟨rfl, rfl⟩ := eq_of_run htyped hindent htype hspace
    fun x hx => contains_typeChar_of_isNameChar (hr.2 x hx)
  rfl

theorem exists_match_statement (hr : IsWord r) (hn : IsWord n) : ∃ m : Match,
    javaRegex.allMatches (statement r n).text = [m] ∧
      MethodAt (statement r n).text m (statement r n) := by
  obtain ⟨d, ks, hd, hdecl⟩ := reaches_java_indented (o := 0) (b := none) (a := []) (v := []) hn hr
    List.not_mem_nil
  have htext : (statement r n).text =
      ' ' :: ' ' :: (r ++ ' ' :: (n ++ '(' :: ([] ++ ')' :: ' ' :: '\x7b' :: []))) := rfl
  have hp : javaRegex.preferred? (.start (statement r n).text) = some (d, ks) := by
    rw [preferred?_eq, htext]
    exact hd
  have hm : javaRegex.allMatches (statement r n).text =
      [⟨.start (statement r n).text, d.offset, ks⟩] := by
    rw [allMatches_eq_matchesFrom rfl, matchesFrom_of_some rfl hp, matchesFrom_of_end rfl hdecl.rest]
  obtain ⟨g, hg⟩ := exists_methodAt (hm ▸ List.mem_singleton_self _)
  exact ⟨_, hm, hg.eq_statement hr hn ▸ hg⟩

theorem signatures_statement (hr : IsWord r) (hn : IsWord n) (hf : Free n) :
    (builtin .java).signatures (statement r n).text = [⟨String.ofList n, "", ""⟩] := by
  obtain ⟨m, hms, hm⟩ := exists_match_statement hr hn
  change (javaRegex.allMatches _).filterMap Extraction.modifierSignature? = _
  have hfree : Free (statement r n).name := hf
  rw [hms, List.filterMap_cons, hm.modifierSignature?_eq, if_pos hfree]
  rfl

theorem extract_statement (hr : IsWord r) (hn : IsWord n) (hf : Free n) :
    (builtin .java).extract (String.ofList (statement r n).text) =
      .ok [⟨String.ofList n, "", ""⟩] := by
  have hnul : '\x00' ∉ (String.ofList (statement r n).text).toList := by
    simp [statement, Heading.text, hr.not_mem (x := '\x00') (by decide),
      hn.not_mem (x := '\x00') (by decide)]
  rw [Rule.extract_eq_ok hnul, String.toList_ofList, signatures_statement hr hn hf]

/-! ## Source texts -/

/-- The signatures of a source text in Java are those of its matches whose names are no control
keywords. Types are not looked at. So to drop the matches with a control keyword for their type
makes no difference exactly when each of them has one for its name too. -/
theorem extract_java_iff (content : String) (h : '\x00' ∉ content.toList) :
    ∃ headings : List Heading,
      List.Forall₂ (MethodAt content.toList) (javaRegex.allMatches content.toList) headings ∧
      (builtin .java).extract content =
        .ok ((headings.filter fun g => Free g.name).map Heading.method) ∧
      ((builtin .java).extract content =
          .ok ((headings.filter fun g => Free g.name ∧ Free g.type).map Heading.method) ↔
        ∀ g ∈ headings, Free g.name → Free g.type) := by
  obtain ⟨headings, hat, hs⟩ := exists_headings_java content.toList
  refine ⟨headings, hat, by rw [Rule.extract_eq_ok h, hs], ?_⟩
  rw [Rule.extract_eq_ok h, hs, Except.ok.injEq]
  constructor
  · intro he
    have hlen := congrArg List.length he
    simp only [List.length_map, Bool.decide_and, Bool.and_comm (decide (Free (Heading.name _))),
      ← List.filter_filter] at hlen
    have hall := List.length_filter_eq_length_iff.mp hlen.symm
    intro g hg hn
    simpa using hall g (List.mem_filter.mpr ⟨hg, by simpa using hn⟩)
  · intro hall
    congr 1
    apply List.filter_congr
    intro g hg
    simpa using hall g hg

theorem extract_java_iff_method : '\x00' ∉ "  int size() \x7b".toList ∧
    ∃ headings : List Heading,
      List.Forall₂ (MethodAt "  int size() \x7b".toList)
        (javaRegex.allMatches "  int size() \x7b".toList) headings ∧
      (headings.filter fun g => Free g.name).map Heading.method = [⟨"size", "", ""⟩] := by
  have hn : '\x00' ∉ "  int size() \x7b".toList := by decide
  obtain ⟨headings, hat, hs, -⟩ := extract_java_iff _ hn
  have he : (builtin .java).extract "  int size() \x7b" = .ok [⟨"size", "", ""⟩] :=
    extract_statement (r := ['i', 'n', 't']) (n := ['s', 'i', 'z', 'e']) (by decide) (by decide)
      (by decide)
  rw [he, Except.ok.injEq] at hs
  exact ⟨hn, headings, hat, hs.symm⟩

/-- An object that is created is reported as a method, though the word in front of its class is a
control keyword. -/
theorem extract_creation : (builtin .java).extract "  new Name() \x7b" = .ok [⟨"Name", "", ""⟩] ∧
    ∃ m g, javaRegex.allMatches "  new Name() \x7b".toList = [m] ∧
      MethodAt "  new Name() \x7b".toList m g ∧ String.ofList g.type = "new" ∧
        "new" ∈ Extraction.controlKeywords := by
  have hr : IsWord ['n', 'e', 'w'] := by decide
  have hn : IsWord ['N', 'a', 'm', 'e'] := by decide
  have htext : "  new Name() \x7b" =
      String.ofList (statement ['n', 'e', 'w'] ['N', 'a', 'm', 'e']).text := by decide
  obtain ⟨m, hms, hm⟩ := exists_match_statement hr hn
  rw [htext, String.toList_ofList, extract_statement hr hn (by decide)]
  exact ⟨rfl, m, _, hms, hm, rfl, by decide⟩

end Rule.Builtin

end CodeOutline
