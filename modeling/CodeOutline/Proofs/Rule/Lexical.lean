import CodeOutline.Proofs.Rule.Boundary
import CodeOutline.Proofs.Rule.Keyword
import CodeOutline.Proofs.Rule.Reading

/-! # Lexical classes of signatures

What a built-in rule reads as a name, as arguments and as a result are texts of a class that its
language fixes, in every source text. Most classes are those of the characters that a group takes.
The arguments and results that a lazy loop takes are bounded by what comes after them instead.
-/

namespace CodeOutline.Rule.Builtin

open Regex

/-! ## Classes -/

/-- Letters, digits, underscores and further characters, one or more of them. -/
def IsRun (extra u : List Char) : Prop :=
  u ≠ [] ∧ ∀ x ∈ u, isNameChar x = true ∨ x ∈ extra

/-- `([A-Za-z0-9_]+::)*~?[A-Za-z0-9_]+` -/
inductive IsQualified : List Char → Prop
  | word {n : List Char} (h : IsWord n) : IsQualified n
  | destructor {n : List Char} (h : IsWord n) : IsQualified ('~' :: n)
  | inScope {scope n : List Char} (hs : IsWord scope) (hn : IsQualified n) :
    IsQualified (scope ++ ([':', ':'] ++ n))

/-- The names of a language. -/
def NameClass : Language → List Char → Prop
  | .python | .javascript | .typescript | .rust | .go | .dart => IsIdentifier
  | .java | .kotlin | .swift | .c | .php => IsWord
  | .cpp => IsQualified

/-- The arguments of a language. -/
def ArgumentsClass : Language → List Char → Prop
  | .python | .javascript | .typescript | .rust | .dart => fun _ => True
  | .go | .java | .kotlin | .swift | .c | .cpp | .php => fun a => ')' ∉ a

/-- The results of a language. -/
def ResultClass : Language → List Char → Prop
  | .python => fun r => ':' ∉ r
  | .rust | .go => fun r => '\x7b' ∉ r
  | .javascript | .typescript => fun r => '=' ∉ r
  | .java => fun r => r = []
  | .c | .cpp => IsWord
  | .dart => IsRun ['<', '>', '?']
  | .kotlin => fun r => r = [] ∨ IsRun ['<', '>', '?', '.'] r
  | .swift => fun r => r = [] ∨ IsRun ['<', '>', '?', '.', '[', ']'] r
  | .php => fun r => r = [] ∨ ∃ mark u, r = mark ++ u ∧ (mark = [] ∨ mark = ['?']) ∧
    IsRun ['<', '>', '|', '\\'] u

/-- Every part of a signature is of its class. -/
structure Lexical (l : Language) (s : Signature) : Prop where
  name : NameClass l s.name.toList
  arguments : ArgumentsClass l s.arguments.toList
  result : ResultClass l s.result.toList

/-- What a group captures is of the class of the part that is read from it. -/
def GroupClass (l : Language) (group : String) (u : List Char) : Prop :=
  if group ∈ Extraction.nameGroups then NameClass l u
  else if group ∈ Extraction.argumentsGroups then ArgumentsClass l u
  else ResultClass l u

variable {l : Language} {u n a r v : List Char} {s : CharSet} {extra : List Char} {greedy : Bool}
  {x : Char} {k : Follow} {Q : String → List Char → Prop}

/-! ## Spelled parts -/

theorem spells_wordOf (h : Spells wordOf u) : IsWord u := by
  obtain ⟨hne, hu⟩ := spells_plus_set.mp h
  exact ⟨hne, fun x hx => by rw [← contains_nameChar, hu x hx]⟩

theorem spells_identifier (h : Spells identifier u) : IsIdentifier u := by
  obtain ⟨v, w, rfl, hv, hw⟩ := spells_seq.mp h
  obtain ⟨x, rfl, hx⟩ := spells_set.mp hv
  refine ⟨x, w, rfl, by rwa [← contains_nameStart], fun y hy => ?_⟩
  rw [← contains_nameChar, spells_star_set.mp hw y hy]

theorem spells_untilParenthesis (h : Spells untilParenthesis u) : ')' ∉ u := by
  intro hm
  have := spells_star_set.mp h ')' hm
  rw [contains_untilParenthesis] at this
  cases this

theorem spells_blanks (h : Spells blanks u) : Text.Blank u := by
  intro x hx
  rw [← CharSet.contains_blank]
  exact spells_star_set.mp h x hx

theorem spells_someBlanks (h : Spells someBlanks u) : u ≠ [] ∧ Text.Blank u := by
  obtain ⟨hne, hu⟩ := spells_plus_set.mp h
  refine ⟨hne, fun x hx => ?_⟩
  rw [← CharSet.contains_blank]
  exact hu x hx

theorem isRun_of_spells (h : Spells (.plus greedy (.set s)) u)
    (hs : ∀ r ∈ s.ranges, ∀ n ∈ List.range' r.1 (r.2 + 1 - r.1),
      nameChar.hasCode n = true ∨ n ∈ extra.map Char.toNat) : IsRun extra u := by
  obtain ⟨hne, hu⟩ := spells_plus_set.mp h
  refine ⟨hne, fun x hx => ?_⟩
  obtain ⟨r, hr, hl, hg⟩ := CharSet.contains_iff.mp (hu x hx)
  rcases hs r hr x.toNat (List.mem_range'_1.mpr ⟨hl, by omega⟩) with hc | hc
  · exact Or.inl (by rw [← contains_nameChar]; exact hc)
  · obtain ⟨y, hy, he⟩ := List.mem_map.mp hc
    exact Or.inr (Char.toNat_inj.mp he ▸ hy)

theorem spells_letters {w : List Char} (h : Spells (concat (letters w)) u) : u = w := by
  induction w generalizing u with
  | nil => exact spells_empty.mp h
  | cons x w ih =>
    obtain ⟨v, t, rfl, hv, ht⟩ := spells_concat_cons.mp h
    rw [spells_char.mp hv, ih ht, List.singleton_append]

theorem spells_scope (h : Spells (concat ([wordOf] ++ letters [':', ':'])) u) :
    ∃ n, u = n ++ [':', ':'] ∧ IsWord n := by
  obtain ⟨n, t, rfl, hn, ht⟩ := spells_concat_cons.mp h
  exact ⟨n, by rw [spells_letters ht], spells_wordOf hn⟩

theorem IsQualified.of_scopes (h : Spells (star (concat ([wordOf] ++ letters [':', ':']))) u)
    (hn : IsQualified n) : IsQualified (u ++ n) := by
  rw [Regex.star, spells_opt] at h
  rcases h with h | rfl
  · -- By induction on the rounds of the loop, of which each spells one scope.
    generalize hr : Regex.plus true (concat ([wordOf] ++ letters [':', ':'])) = r at h
    induction h with
    | empty | set | look | group | seq | first | second => cases hr
    | once h =>
      cases hr
      obtain ⟨m, rfl, hm⟩ := spells_scope h
      rw [List.append_assoc]
      exact .inScope hm hn
    | again hu _ _ ih =>
      cases hr
      obtain ⟨m, rfl, hm⟩ := spells_scope hu
      rw [List.append_assoc, List.append_assoc]
      exact .inScope hm (ih rfl)
  · exact hn

theorem spells_qualified (h : Spells (concat [star (concat ([wordOf] ++ letters [':', ':'])),
    opt (.char '~'), wordOf]) u) : IsQualified u := by
  obtain ⟨scopes, t, rfl, hs, ht⟩ := spells_concat_cons.mp h
  obtain ⟨tilde, n, rfl, hd, hn⟩ := spells_concat_cons.mp ht
  refine IsQualified.of_scopes hs ?_
  rcases spells_opt.mp hd with hd | rfl
  · rw [spells_char.mp hd]
    exact .destructor (spells_wordOf hn)
  · exact .word (spells_wordOf hn)

theorem notMem_of_spells (h : Spells (.plus greedy (.set s)) u) (hx : s.contains x = false) :
    x ∉ u := by
  intro hm
  have := (spells_plus_set.mp h).2 x hm
  rw [hx] at this
  cases this

/-! ## What follows a lazy loop -/

theorem prefers_of_isSome (h : ∀ o b v ks, (k ⟨o, b, x :: v⟩ ks).isSome = true) :
    Prefers k x := by
  rintro ⟨o, b, t⟩ u d ks ks' ht _ _
  cases t with
  | nil => cases ht
  | cons y v =>
    cases ht
    exact h o b v ks

theorem prefers_char (x : Char) : Prefers ((Regex.char x).reach? accept) x := by
  refine prefers_of_isSome fun o b v ks => ?_
  rw [reach?_char_cons, if_pos rfl]
  rfl

theorem prefers_brace : Prefers (reachAll? [blanks, openBrace] accept) '\x7b' := by
  exact prefers_of_isSome fun _ _ _ _ =>
    isSome_of_reaches (P := fun _ _ => True) (reaches_brace (reaches_some trivial))

theorem mem_rest_of_isSome (rs : List Regex) {c : Cursor} {ks : Captures}
    (h : (reachAll? (rs ++ [.char x]) accept c ks).isSome = true) : x ∈ c.rest := by
  obtain ⟨p, hp⟩ := Option.isSome_iff_exists.mp h
  rw [← reach?_concat] at hp
  obtain ⟨o, ho, _⟩ := List.exists_of_findSome?_eq_some hp
  obtain ⟨u, hu, hs⟩ := spells_of_mem_outcomes ho
  obtain ⟨v, rfl⟩ := exists_eq_append_of_spells hs
  rw [hu.rest]
  simp

theorem prefers_result :
    Prefers (reachAll? [closeParenthesis, blanks, .group "ret" shortest, openBrace] accept)
      ')' := by
  rintro ⟨o, b, t⟩ u d ks ks' ht hu hd
  -- The result may be any text, so all that an end needs after the parenthesis is some brace, and
  -- the later end shows that there is one.
  have hm : '\x7b' ∈ t := by
    change '\x7b' ∈ (⟨o, b, t⟩ : Cursor).rest
    rw [hu.rest]
    exact List.mem_append_right u
      (mem_rest_of_isSome [closeParenthesis, blanks, .group "ret" shortest] hd)
  cases t with
  | nil => cases ht
  | cons y v =>
    cases ht
    obtain ⟨w, v', hv, hw⟩ :=
      List.eq_append_cons_of_mem ((List.mem_cons.mp hm).resolve_left (by decide))
    rw [reachAll?_cons, closeParenthesis, reach?_char_cons, if_pos rfl]
    exact isSome_of_reaches (P := fun _ _ => True)
      (reaches_result_char hv rfl hw fun _ _ _ _ _ => reaches_some trivial)

/-! ## Captures -/

theorem bounds_of_groups {r : Regex} (h : r.groups.Forall fun g => ∀ u, Spells g.2 u → Q g.1 u) :
    Bounds Q r :=
  List.forall_iff_forall_mem.mp h

theorem bounds_of_noGroups {r : Regex} (h : r.groups = []) : Bounds Q r := by
  intro g hg
  rw [h] at hg
  exact absurd hg List.not_mem_nil

theorem ensures_python : Ensures (GroupClass .python) (pythonRegex.reach? accept) := by
  have hk : Ensures (GroupClass .python) ((Regex.char ':').reach? accept) :=
    ensures_reach? (bounds_of_noGroups rfl) ensures_accept
  rw [pythonRegex, reach?_concat]
  refine ensures_reachAll?_append ([edge] ++ letters ['d', 'e', 'f'] ++ [someBlanks,
    .group "name" identifier, blanks, openParenthesis, .group "args" shortest, closeParenthesis])
    (bounds_of_groups ⟨fun _ => spells_identifier, fun _ _ => trivial⟩) ?_
  refine ensures_opt ?_ hk
  rw [reach?_concat]
  refine ensures_reachAll?_append ([blanks] ++ letters ['-', '>'] ++ [blanks])
    (bounds_of_noGroups rfl) ?_
  exact ensures_lazyStar_set hk (prefers_char ':') fun _ => id

theorem ensures_rust : Ensures (GroupClass .rust) (rustRegex.reach? accept) := by
  have hk : Ensures (GroupClass .rust) (reachAll? [blanks, openBrace] accept) :=
    ensures_reachAll? (bounds_of_noGroups rfl) ensures_accept
  rw [rustRegex, reach?_concat]
  refine ensures_reachAll?_append ([edge] ++ letters ['f', 'n'] ++ [someBlanks,
    .group "name" identifier, blanks, opt (concat [.char '<', shortest, .char '>']), blanks,
    openParenthesis, .group "args" shortest, closeParenthesis])
    (bounds_of_groups ⟨fun _ => spells_identifier, fun _ _ => trivial⟩) ?_
  refine ensures_opt ?_ hk
  rw [reach?_concat]
  refine ensures_reachAll?_append ([blanks] ++ letters ['-', '>'] ++ [blanks])
    (bounds_of_noGroups rfl) ?_
  exact ensures_lazyStar_set hk prefers_brace fun _ => id

theorem ensures_go : Ensures (GroupClass .go) (goRegex.reach? accept) := by
  have hk : Ensures (GroupClass .go) (openBrace.reach? accept) :=
    ensures_reach? (bounds_of_noGroups rfl) ensures_accept
  rw [goRegex, reach?_concat]
  refine ensures_reachAll?_append ([edge] ++ letters ['f', 'u', 'n', 'c'] ++ [someBlanks,
    opt (concat [openParenthesis, untilParenthesis, closeParenthesis, blanks]),
    .group "name" identifier, blanks, openParenthesis])
    (bounds_of_groups (fun _ => spells_identifier)) ?_
  refine ensures_lazyStar_set ?_ prefers_result fun _ => id
  refine ensures_reachAll?_append [closeParenthesis, blanks] (bounds_of_noGroups rfl) ?_
  exact ensures_lazyStar_set hk (prefers_char '\x7b') fun _ => id

theorem spells_phpResult (h : Spells (.seq (opt (.char '?')) (.plus true (.set s))) u)
    (hs : ∀ v, Spells (.plus true (.set s)) v → IsRun extra v) :
    ∃ mark v, u = mark ++ v ∧ (mark = [] ∨ mark = ['?']) ∧ IsRun extra v := by
  obtain ⟨mark, v, rfl, hm, hv⟩ := spells_seq.mp h
  exact ⟨mark, v, rfl, (spells_opt.mp hm).symm.imp_right spells_char.mp, hs v hv⟩

theorem bounds_builtin (hl : l ∉ [.python, .rust, .go]) :
    Bounds (GroupClass l) (builtin l).regex := by
  cases l with
  | python | rust | go => exact absurd hl (by decide)
  | javascript | typescript =>
    refine bounds_of_groups ⟨fun _ => spells_identifier, fun _ _ => trivial, fun _ h => ?_,
      fun _ => spells_identifier, fun _ _ => trivial, fun _ h => ?_,
      fun _ => spells_identifier, fun _ _ => trivial⟩
    all_goals
      refine notMem_of_spells h ?_
      rw [CharSet.contains_complement (by decide)]
      decide
  | dart =>
    refine bounds_of_groups ⟨fun _ h => ?_, fun _ => spells_identifier, fun _ _ => trivial⟩
    exact isRun_of_spells h (by decide)
  | java =>
    exact bounds_of_groups ⟨fun _ => spells_wordOf, fun _ => spells_untilParenthesis⟩
  | kotlin | swift =>
    refine bounds_of_groups ⟨fun _ => spells_wordOf, fun _ => spells_untilParenthesis,
      fun _ h => Or.inr ?_⟩
    exact isRun_of_spells h (by decide)
  | c =>
    exact bounds_of_groups ⟨fun _ => spells_wordOf, fun _ => spells_wordOf,
      fun _ => spells_untilParenthesis⟩
  | cpp =>
    exact bounds_of_groups ⟨fun _ => spells_wordOf, fun _ => spells_qualified,
      fun _ => spells_untilParenthesis⟩
  | php =>
    refine bounds_of_groups ⟨fun _ => spells_wordOf, fun _ => spells_untilParenthesis,
      fun _ h => Or.inr ?_⟩
    exact spells_phpResult h fun _ hv => isRun_of_spells hv (by decide)

theorem ensures_builtin (l : Language) :
    Ensures (GroupClass l) ((builtin l).regex.reach? accept) := by
  by_cases hl : l ∈ [.python, .rust, .go]
  · simp only [List.mem_cons, List.not_mem_nil, or_false] at hl
    rcases hl with rfl | rfl | rfl
    · exact ensures_python
    · exact ensures_rust
    · exact ensures_go
  · exact ensures_reach? (bounds_builtin hl) ensures_accept

/-! ## Signatures -/

theorem IsQualified.isBlank_eq (h : IsQualified n) : ∀ x ∈ n, Text.isBlank x = false := by
  induction h with
  | word h => exact fun x hx => isBlank_of_isNameChar (h.2 x hx)
  | destructor h =>
    exact List.forall_mem_cons.mpr ⟨by decide, fun x hx => isBlank_of_isNameChar (h.2 x hx)⟩
  | inScope hs _ ih =>
    refine List.forall_mem_append.mpr ⟨fun x hx => isBlank_of_isNameChar (hs.2 x hx), ?_⟩
    exact List.forall_mem_cons.mpr ⟨by decide, List.forall_mem_cons.mpr ⟨by decide, ih⟩⟩

theorem NameClass.isBlank_eq (h : NameClass l n) : ∀ x ∈ n, Text.isBlank x = false := by
  cases l with
  | python | javascript | typescript | rust | go | dart =>
    exact fun x hx => isBlank_of_isNameChar (IsIdentifier.isWord h |>.2 x hx)
  | java | kotlin | swift | c | php => exact fun x hx => isBlank_of_isNameChar (h.2 x hx)
  | cpp => exact IsQualified.isBlank_eq h

theorem IsRun.isBlank_eq (h : IsRun extra u) (he : extra.any Text.isBlank = false) :
    ∀ x ∈ u, Text.isBlank x = false := by
  intro x hx
  rcases h.2 x hx with hn | hm
  · exact isBlank_of_isNameChar hn
  · exact eq_false_of_ne_true (List.any_eq_false.mp he x hm)

theorem notMem_collapseChars (hx : x ≠ ' ') (h : x ∉ u) : x ∉ Text.collapseChars u :=
  fun hm => h ((Text.mem_collapseChars hx).mp hm).1

theorem argumentsClass_nil (l : Language) : ArgumentsClass l [] := by
  cases l <;> simp [ArgumentsClass]

theorem ArgumentsClass.collapse (h : ArgumentsClass l a) :
    ArgumentsClass l (Text.collapseChars a) := by
  cases l with
  | python | javascript | typescript | rust | dart => trivial
  | go | java | kotlin | swift | c | cpp | php => exact notMem_collapseChars (by decide) h

theorem resultClass_nil (h : (builtin l).family ≠ .returnTypeFirst) : ResultClass l [] := by
  cases l with
  | c | cpp | dart => exact absurd rfl h
  | python | rust | go | javascript | typescript => exact List.not_mem_nil
  | java => rfl
  | kotlin | swift | php => exact Or.inl rfl

theorem ResultClass.collapse (h : ResultClass l r) : ResultClass l (Text.collapseChars r) := by
  cases l with
  | python | rust | go | javascript | typescript => exact notMem_collapseChars (by decide) h
  | java =>
    rw [show r = [] from h]
    rfl
  | c | cpp => rwa [Text.collapseChars_eq_self fun x hx => isBlank_of_isNameChar (h.2 x hx)]
  | dart => rwa [Text.collapseChars_eq_self (IsRun.isBlank_eq h (by decide))]
  | kotlin | swift =>
    rcases h with rfl | h
    · exact Or.inl rfl
    · rw [Text.collapseChars_eq_self (h.isBlank_eq (by decide))]
      exact Or.inr h
  | php =>
    rcases h with rfl | ⟨mark, u, rfl, hm, hu⟩
    · exact Or.inl rfl
    · have hmark : ∀ x ∈ mark, Text.isBlank x = false := by
        rcases hm with rfl | rfl
        · exact List.forall_mem_nil _
        · exact List.forall_mem_singleton.mpr rfl
      rw [Text.collapseChars_eq_self
        (List.forall_mem_append.mpr ⟨hmark, hu.isBlank_eq (by decide)⟩)]
      exact Or.inr ⟨mark, u, rfl, hm, hu⟩

theorem GroupClass.name {group : String} (h : GroupClass l group u)
    (hg : group ∈ Extraction.nameGroups) : NameClass l u := by
  rwa [GroupClass, if_pos hg] at h

theorem GroupClass.arguments {group : String} (h : GroupClass l group u)
    (hg : group ∈ Extraction.argumentsGroups) : ArgumentsClass l u := by
  have hn : ∀ g ∈ Extraction.argumentsGroups, g ∉ Extraction.nameGroups := by decide
  rwa [GroupClass, if_neg (hn group hg), if_pos hg] at h

theorem GroupClass.result {group : String} (h : GroupClass l group u)
    (hg : group ∈ Extraction.resultGroups) : ResultClass l u := by
  have hn : ∀ g ∈ Extraction.resultGroups,
      g ∉ Extraction.nameGroups ∧ g ∉ Extraction.argumentsGroups := by decide
  rwa [GroupClass, if_neg (hn group hg).1, if_neg (hn group hg).2] at h

/-- A signature that is read from captures of the classes of their groups is of its classes. -/
theorem lexical_of_records {m : Match} {s : Signature} (hm : Records (GroupClass l) m.captures)
    (h : Extraction.signature? (builtin l).family m = some s) : Lexical l s := by
  obtain ⟨n, a, r, hr⟩ := Extraction.exists_readsFrom h
  obtain ⟨hne, rfl⟩ := Signature.ofTexts?_eq_some_iff.mp hr.signature
  have hname : NameClass l n.toList := by
    obtain ⟨group, hg, rfl⟩ := hr.name
    refine (Extraction.groupText_of_records hm fun he => hne ?_).name hg
    rw [he]
    rfl
  -- A group that takes no part in the match leaves its part of the signature empty.
  have harguments : ArgumentsClass l a.toList := by
    obtain ⟨group, hg, rfl⟩ := hr.arguments
    by_cases he : Extraction.groupText m group = ""
    · rw [he]
      exact argumentsClass_nil l
    · exact (Extraction.groupText_of_records hm he).arguments hg
  have hresult : ResultClass l r.toList := by
    by_cases he : r = ""
    · rw [he]
      exact resultClass_nil fun hf => hr.stated hf he
    · obtain ⟨group, hg, rfl⟩ := hr.result.resolve_left he
      exact (Extraction.groupText_of_records hm he).result hg
  constructor
  · rwa [Text.trim, Text.trimChars_eq_self hname.isBlank_eq, String.ofList_toList]
  · simpa only [Text.collapse, String.toList_ofList] using harguments.collapse
  · simpa only [Text.collapse, String.toList_ofList] using hresult.collapse

/-- The signatures of a source text are of the classes of their language. -/
theorem extract_lexical (l : Language) (content : String) (h : '\x00' ∉ content.toList) :
    ∃ signatures, (builtin l).extract content = .ok signatures ∧
      ∀ s ∈ signatures, Lexical l s := by
  refine ⟨_, Rule.extract_eq_ok h, fun s hs => ?_⟩
  obtain ⟨m, hm, hs⟩ := Rule.exists_match_of_mem_signatures (ensures_builtin l) hs
  exact lexical_of_records hm hs

theorem extract_lexical_go :
    (builtin .go).extract "func (s *Set) add(a int) (bool, error) \x7b\n\x7d\n" =
        .ok [⟨"add", "a int", "(bool, error)"⟩] ∧
      Lexical .go ⟨"add", "a int", "(bool, error)"⟩ := by
  have he : (builtin .go).extract "func (s *Set) add(a int) (bool, error) \x7b\n\x7d\n" =
      .ok [⟨"add", "a int", "(bool, error)"⟩] := by decide +kernel
  obtain ⟨signatures, h, hs⟩ :=
    extract_lexical .go "func (s *Set) add(a int) (bool, error) \x7b\n\x7d\n" (by decide)
  rw [he] at h
  cases h
  exact ⟨he, hs _ (List.mem_singleton_self _)⟩

end CodeOutline.Rule.Builtin
