import CodeOutline.Proofs.Regex.Matches
import CodeOutline.Proofs.Rule.Parts

/-! # Statement boundaries

The rules of four languages read arguments up to the first closing parenthesis and otherwise take
neither a semicolon nor a closing brace. So where every parenthesis of a text is closed in it, no
match goes on over such a character after the text, and the text after it is read as if it stood
alone.
-/

namespace CodeOutline

open Regex

/-! ## Readings -/

/-- The same text captured under the same name. -/
def SameText (κ κ' : Capture) : Prop :=
  κ.name = κ'.name ∧ κ.text = κ'.text

theorem group?_eq_of_sameText {m m' : Match}
    (h : List.Forall₂ SameText m.captures m'.captures) (name : String) :
    m.group? name = m'.group? name := by
  rw [Match.group?, Match.group?]
  rcases rel_cases (rel_find? (fun _ _ h => h.1) h name) with ⟨hm, hm'⟩ | ⟨κ, κ', hm, hm', h⟩
  · rw [hm, hm']
  · rw [hm, hm']
    exact congrArg some h.2

theorem Extraction.hasGroup_eq (m : Match) (name : String) :
    hasGroup m name = (m.group? name).isSome := by
  rw [hasGroup, Match.group?, Option.isSome_map]

theorem signature?_congr {m m' : Match} (h : ∀ name, m.group? name = m'.group? name)
    (family : Family) :
    Extraction.signature? family m = Extraction.signature? family m' := by
  have htext : Extraction.groupText m = Extraction.groupText m' := by
    funext name
    rw [Extraction.groupText, Extraction.groupText, h]
  have hhas : Extraction.hasGroup m = Extraction.hasGroup m' := by
    funext name
    rw [Extraction.hasGroup_eq, Extraction.hasGroup_eq, h]
  cases family <;>
    simp only [Extraction.signature?, Extraction.keywordSignature?,
      Extraction.returnTypeFirstSignature?, Extraction.arrowSignature?,
      Extraction.modifierSignature?, htext, hhas]

theorem Rule.extract_eq_ok {rule : Rule} {content : String} (h : '\x00' ∉ content.toList) :
    rule.extract content = .ok (rule.signatures content.toList) := by
  have hn : content.toList.contains '\x00' = false := by
    rw [Bool.eq_false_iff, ne_eq, List.contains_iff_mem]
    exact h
  rw [Rule.extract, hn, if_neg Bool.false_ne_true]

namespace Rule.Builtin

/-- Every parenthesis that is opened is closed later. -/
def Closed (t : List Char) : Prop :=
  ∀ a b, t = a ++ '(' :: b → ')' ∈ b

theorem Closed.of_append {u v : List Char} (h : Closed (u ++ v)) : Closed v := by
  intro a b hv
  exact h (u ++ a) b (by rw [hv, List.append_assoc])

theorem closed_nil : Closed [] := by
  intro a b h
  simp at h

theorem closed_cons (x : Char) (u : List Char) :
    Closed (x :: u) ↔ (x = '(' → ')' ∈ u) ∧ Closed u := by
  constructor
  · intro h
    refine ⟨?_, Closed.of_append (u := [x]) h⟩
    rintro rfl
    exact h [] u rfl
  · rintro ⟨hx, hu⟩ a b h
    cases a with
    | nil =>
      obtain ⟨rfl, rfl⟩ := List.cons.inj h
      exact hx rfl
    | cons y a =>
      obtain ⟨_, h⟩ := List.cons.inj h
      exact hu a b h

instance decidableClosed : (t : List Char) → Decidable (Closed t)
  | [] => isTrue closed_nil
  | x :: u =>
    have := decidableClosed u
    decidable_of_iff _ (closed_cons x u).symm

/-- The ends of statements. -/
def boundaries : List Char := [';', '\x7d']

/-- Places in a text and in the same text before a boundary and another text. -/
structure Continues (x : Char) (t : List Char) (c c' : Cursor) : Prop where
  before : c'.before = c.before
  rest : c'.rest = c.rest ++ x :: t
  closed : Closed c.rest

/-- Places with the same text after them. -/
structure Shifted (c c' : Cursor) : Prop where
  before : Look.isWord true c'.before = Look.isWord true c.before
  rest : c'.rest = c.rest

variable {E : Cursor × Captures → Cursor × Captures → Prop} {k k' : Follow} {ks : Captures}
  {rs : List Regex} {name : String} {x y : Char} {a t u v : List Char} {o : Nat} {b : Option Char}
  {s : CharSet} {c c' : Cursor} {r : Regex}

theorem isWord_boundary (hx : x ∈ boundaries) : Look.isWord true (some x) = false := by
  simp only [boundaries, List.mem_cons, List.not_mem_nil, or_false] at hx
  rcases hx with rfl | rfl <;> rfl

theorem Continues.next (hc : Continues x t c c') (hu : c.rest = y :: u) :
    Continues x t c.next c'.next := by
  have hu' : c'.rest = y :: (u ++ x :: t) := by rw [hc.rest, hu]; rfl
  have hclosed : Closed ([y] ++ u) := by
    have := hc.closed
    rwa [hu] at this
  rw [Cursor.next_eq hu, Cursor.next_eq hu']
  exact ⟨rfl, rfl, hclosed.of_append⟩

theorem Shifted.next (hc : Shifted c c') (hu : c.rest = y :: u) : Shifted c.next c'.next := by
  rw [Cursor.next_eq hu, Cursor.next_eq (hc.rest.trans hu)]
  exact ⟨rfl, rfl⟩

theorem inStep_continues (hx : x ∈ boundaries) (t : List Char) :
    InStep boundaries (Continues x t) where
  head := by
    intro c c' hc y hy
    rw [hc.rest]
    cases c.rest with
    | nil =>
      rw [List.nil_append, List.head?_cons, Option.some.injEq]
      constructor
      · nofun
      · rintro rfl
        exact absurd hx hy
    | cons z u => rfl
  next hc y _ hy := by
    obtain ⟨u, hu⟩ := exists_eq_cons_of_head? hy
    exact hc.next hu
  edge := by
    intro c c' hc
    have hw := isWord_boundary hx
    rw [Look.holds, Look.holds, hc.before, hc.rest]
    cases c.rest with
    | nil => rw [List.nil_append, List.head?_cons, hw]; rfl
    | cons z u => rfl

theorem inStep_shifted : InStep [] Shifted where
  head hc y _ := by rw [hc.rest]
  next hc y _ hy := by
    obtain ⟨u, hu⟩ := exists_eq_cons_of_head? hy
    exact hc.next hu
  edge hc := by rw [Look.holds, Look.holds, hc.before, hc.rest]

/-! ## Arguments -/

theorem reach?_star_set_eq (hu : ∀ x ∈ u, s.contains x = true)
    (hv : ∀ x ∈ v.head?, s.contains x = false)
    (hk : ∀ x w, s.contains x = true → Refuses k (x :: w)) :
    (star (.set s)).reach? k ⟨o, b, u ++ v⟩ ks = k ⟨o + u.length, lastOf b u, v⟩ ks := by
  induction u generalizing o b with
  | nil =>
    cases v with
    | nil => exact reach?_star_set_nil
    | cons y v => rw [List.nil_append, reach?_star_set_cons, hv y rfl]; rfl
  | cons x u ih =>
    have hx := hu x List.mem_cons_self
    have ho : o + (x :: u).length = o + 1 + u.length := by rw [List.length_cons]; omega
    rw [List.cons_append, reach?_star_set_cons, if_pos hx,
      ih fun y hy => hu y (List.mem_cons_of_mem x hy), hk x (u ++ v) hx, Option.or_none, ho]
    rfl

/-- Arguments in parentheses. -/
def arguments : List Regex :=
  [openParenthesis, .group "args" untilParenthesis, closeParenthesis]

theorem refuses_closeParenthesis (h : x ≠ ')') : Refuses (closeParenthesis.reach? k) (x :: v) :=
  refuses_char (by rw [List.head?_cons, ne_eq, Option.some.injEq]; exact h)

theorem reachAll?_arguments (ha : ')' ∉ a) :
    reachAll? (arguments ++ rs) k ⟨o, b, '(' :: (a ++ ')' :: v)⟩ ks =
      reachAll? rs k ⟨o + 1 + a.length + 1, some ')', v⟩
        (⟨"args", ⟨o + 1, some '(', a ++ ')' :: v⟩, o + 1 + a.length⟩ :: ks) := by
  rw [arguments, List.cons_append, reachAll?_cons, openParenthesis, reach?_char_cons, if_pos rfl,
    List.cons_append, reachAll?_cons, reach?_group, untilParenthesis, reach?_star_set_eq]
  · rw [List.cons_append, List.nil_append, reachAll?_cons, closeParenthesis, reach?_char_cons,
      if_pos rfl]
  · intro x hx
    rw [contains_untilParenthesis, bne_iff_ne]
    rintro rfl
    exact ha hx
  · intro x hx
    obtain rfl : ')' = x := by simpa using hx
    rw [contains_untilParenthesis]
    rfl
  · intro x w hx
    rw [contains_untilParenthesis, bne_iff_ne] at hx
    exact (refuses_closeParenthesis hx).group _

theorem agree_arguments (hx : x ∈ boundaries)
    (h : Agree SameText E (Continues x t) (reachAll? rs k) (reachAll? rs k')) :
    Agree SameText E (Continues x t) (reachAll? (arguments ++ rs) k)
      (reachAll? (arguments ++ rs) k') := by
  have hopen : ∀ k, ∀ y v, y ≠ '(' → Refuses (reachAll? (arguments ++ rs) k) (y :: v) :=
    fun k y v hy => refuses_char (by rw [List.head?_cons, ne_eq, Option.some.injEq]; exact hy)
  rintro ⟨o, b, u⟩ ⟨o', b', u'⟩ ks ks' hc hks
  obtain rfl : b' = b := hc.before
  obtain rfl : u' = u ++ x :: t := hc.rest
  cases u with
  | nil =>
    have hne : x ≠ '(' := by
      rintro rfl
      exact absurd hx (by decide)
    rw [List.nil_append, hopen k' x t hne]
    exact .none
  | cons y u =>
    by_cases hy : y = '('
    · subst hy
      obtain ⟨a, v, rfl, ha⟩ := List.eq_append_cons_of_mem (hc.closed [] u rfl)
      have hassoc : '(' :: (a ++ ')' :: v) ++ x :: t = '(' :: (a ++ ')' :: (v ++ x :: t)) := by
        simp
      rw [hassoc, reachAll?_arguments ha, reachAll?_arguments ha]
      have hclosed : Closed ('(' :: a ++ [')'] ++ v) := by
        have := hc.closed
        rwa [List.append_assoc, List.cons_append]
      exact h _ _ _ _ ⟨rfl, rfl, hclosed.of_append⟩ (.cons ⟨rfl, by simp⟩ hks)
    · rw [List.cons_append, hopen k y _ hy, hopen k' y _ hy]
      exact .none

/-! ## Rules -/

/-- An expression with arguments in parentheses that takes no boundary outside of them. -/
structure Bounded (r : Regex) : Prop where
  consumes : r.consumes = true
  edges : r.avoids [] = true
  eq : ∃ rs rs', r = concat (rs ++ (arguments ++ rs')) ∧
    (∀ r ∈ rs, r.avoids boundaries = true) ∧ ∀ r ∈ rs', r.avoids boundaries = true

theorem bounded_of_forall (rs rs' : List Regex) (he : r = concat (rs ++ (arguments ++ rs')))
    (hc : r.consumes = true) (ha : r.avoids [] = true)
    (h : (rs ++ rs').all (·.avoids boundaries) = true) : Bounded r := by
  rw [List.all_append, Bool.and_eq_true, List.all_eq_true, List.all_eq_true] at h
  exact ⟨hc, ha, rs, rs', he, h.1, h.2⟩

theorem bounded_c : Bounded cRegex :=
  bounded_of_forall [.group "ret" wordOf, someBlanks, .group "name" wordOf, blanks]
    [blanks, openBrace] rfl rfl rfl rfl

theorem bounded_cpp : Bounded cppRegex :=
  bounded_of_forall
    [.group "ret" wordOf, someBlanks,
      .group "name" (concat [star (concat ([wordOf] ++ letters [':', ':'])), opt (.char '~'),
        wordOf]), blanks]
    [blanks, opt (concat (letters ['c', 'o', 'n', 's', 't'])), blanks, openBrace]
    rfl rfl rfl rfl

theorem bounded_swift : Bounded swiftRegex :=
  bounded_of_forall
    ([edge] ++ letters ['f', 'u', 'n', 'c'] ++ [someBlanks, .group "name" wordOf, blanks])
    [star (concat [someBlanks, choice [concat (letters ['a', 's', 'y', 'n', 'c']),
        concat (letters ['t', 'h', 'r', 'o', 'w', 's']),
        concat (letters ['r', 'e', 't', 'h', 'r', 'o', 'w', 's'])]]),
      opt (concat ([blanks] ++ letters ['-', '>'] ++ [blanks, .group "ret" (.plus true (.set
        ⟨[(0x2E, 0x2E), (0x30, 0x39), (0x3C, 0x3C), (0x3E, 0x3F), (0x41, 0x5B), (0x5D, 0x5D),
          (0x5F, 0x5F), (0x61, 0x7A)]⟩))])),
      blanks, openBrace]
    rfl rfl rfl rfl

theorem bounded_php : Bounded phpRegex :=
  bounded_of_forall
    ([edge] ++ letters ['f', 'u', 'n', 'c', 't', 'i', 'o', 'n'] ++
      [someBlanks, .group "name" wordOf, blanks])
    [blanks,
      opt (concat [.char ':', blanks, .group "ret" (.seq (opt (.char '?')) (.plus true (.set
        ⟨[(0x30, 0x39), (0x3C, 0x3C), (0x3E, 0x3E), (0x41, 0x5A), (0x5C, 0x5C), (0x5F, 0x5F),
          (0x61, 0x7A), (0x7C, 0x7C)]⟩)))]),
      blanks, openBrace]
    rfl rfl rfl rfl

theorem sameText_of_eq (κ κ' : Capture) (hn : κ.name = κ'.name) (ht : κ.text = κ'.text) :
    SameText κ κ' :=
  ⟨hn, ht⟩

theorem Bounded.rel_continues (h : Bounded r) (hx : x ∈ boundaries) (hc : Continues x t c c') :
    Option.Rel (Ends SameText (Continues x t)) (r.preferred? c) (r.preferred? c') := by
  obtain ⟨rs, rs', rfl, hrs, hrs'⟩ := h.eq
  have hP := inStep_continues hx t
  have hlast := agree_reachAll? sameText_of_eq hrs' hP (agree_accept SameText (Continues x t))
  have hall := agree_reachAll? sameText_of_eq hrs hP (agree_arguments hx hlast)
  rw [preferred?_eq, preferred?_eq, reach?_concat, reachAll?_append]
  exact hall c c' [] [] hc .nil

theorem Bounded.searchInStep_continues (h : Bounded r) (hx : x ∈ boundaries) (t : List Char) :
    SearchInStep r SameText (Continues x t) where
  consumes := h.consumes
  step := by
    intro c c' y u hc hy
    refine ⟨[], c'.rest, rfl, by simp [Cursor.along], h.rel_continues hx hc, ?_, hc.next hy⟩
    rw [hc.rest]
    simp

theorem Bounded.searchInStep_shifted (h : Bounded r) : SearchInStep r SameText Shifted where
  consumes := h.consumes
  step := by
    intro c c' y u hc hy
    refine ⟨[], c'.rest, rfl, by simp [Cursor.along], ?_, ?_, hc.next hy⟩
    · rw [preferred?_eq, preferred?_eq]
      exact agree_reach? sameText_of_eq h.edges inStep_shifted (agree_accept SameText Shifted)
        c c' [] [] hc .nil
    · rw [hc.rest, hy]
      exact List.cons_ne_nil y u

theorem Bounded.filterMap_matchesFrom_boundary (h : Bounded r) (hx : x ∈ boundaries)
    (family : Family) (hc : Continues x t c c') (hend : c.rest = []) :
    (matchesFrom r.preferred? c').filterMap (Extraction.signature? family) =
      (r.allMatches t).filterMap (Extraction.signature? family) := by
  have hr : c'.rest = x :: t := by rw [hc.rest, hend]; rfl
  have hnone : r.preferred? c' = none :=
    eq_none_of_rel' (h.rel_continues hx hc) (preferred?_eq_none_of_consumes h.consumes hend)
  have hshifted : Shifted (.start t) c'.next := by
    rw [Cursor.next_eq hr]
    exact ⟨isWord_boundary hx, rfl⟩
  rw [matchesFrom_of_none hnone hr, allMatches_eq_matchesFrom h.consumes,
    filterMap_matchesFrom h.searchInStep_shifted
      (fun m m' hm => signature?_congr (group?_eq_of_sameText hm) family)
      (fun d d' hd hdr => ?_) hshifted, List.append_nil]
  rw [matchesFrom_of_end h.consumes (hd.rest.trans hdr), List.filterMap_nil]

/-- A text with closed parentheses has no influence on what is found after a boundary, nor that on
what is found in it. -/
theorem Bounded.signatures_append {rule : Rule} (h : Bounded rule.regex) (hx : x ∈ boundaries)
    (hu : Closed u) (t : List Char) :
    rule.signatures (u ++ x :: t) = rule.signatures u ++ rule.signatures t := by
  have hstart : Continues x t (.start u) (.start (u ++ x :: t)) := ⟨rfl, rfl, hu⟩
  rw [Rule.signatures, Rule.signatures, Rule.signatures, allMatches_eq_matchesFrom h.consumes,
    allMatches_eq_matchesFrom h.consumes (u)]
  exact filterMap_matchesFrom (h.searchInStep_continues hx t)
    (fun m m' hm => signature?_congr (group?_eq_of_sameText hm) rule.family)
    (fun c c' hc hend => h.filterMap_matchesFrom_boundary hx rule.family hc hend) hstart

theorem bounded_builtin {l : Language} (hl : l ∈ [Language.c, .cpp, .swift, .php]) :
    Bounded (builtin l).regex := by
  simp only [List.mem_cons, List.not_mem_nil, or_false] at hl
  rcases hl with rfl | rfl | rfl | rfl
  · exact bounded_c
  · exact bounded_cpp
  · exact bounded_swift
  · exact bounded_php

/-- At a boundary after closed parentheses, source text is extracted in two parts. -/
theorem extract_append_boundary {l : Language} (hl : l ∈ [Language.c, .cpp, .swift, .php])
    {before after : String} {x : Char} (hx : x ∈ boundaries) (hb : '\x00' ∉ before.toList)
    (ha : '\x00' ∉ after.toList) (hclosed : Closed before.toList) :
    ∃ signatures signatures', (builtin l).extract before = .ok signatures ∧
      (builtin l).extract after = .ok signatures' ∧
        (builtin l).extract (before ++ String.singleton x ++ after) =
          .ok (signatures ++ signatures') := by
  have hl' : (before ++ String.singleton x ++ after).toList =
      before.toList ++ x :: after.toList := by simp
  have hn : '\x00' ∉ (before ++ String.singleton x ++ after).toList := by
    have hne : '\x00' ≠ x := by
      rintro rfl
      exact absurd hx (by decide)
    rw [hl', List.mem_append, List.mem_cons]
    rintro (h | h | h)
    · exact hb h
    · exact hne h
    · exact ha h
  refine ⟨_, _, Rule.extract_eq_ok hb, Rule.extract_eq_ok ha, ?_⟩
  rw [Rule.extract_eq_ok hn, hl', (bounded_builtin hl).signatures_append hx hclosed]

theorem extract_append_boundary_c :
    (Language.c ∈ [Language.c, .cpp, .swift, .php] ∧ ';' ∈ boundaries ∧
      '\x00' ∉ ("int f(int a) \x7b g(a)" : String).toList ∧
        '\x00' ∉ (" \x7d int h() \x7b" : String).toList ∧
          Closed ("int f(int a) \x7b g(a)" : String).toList) ∧
      ∃ signatures signatures',
        (builtin .c).extract "int f(int a) \x7b g(a)" = .ok signatures ∧
          (builtin .c).extract " \x7d int h() \x7b" = .ok signatures' ∧
            (builtin .c).extract ("int f(int a) \x7b g(a)" ++ String.singleton ';' ++
              " \x7d int h() \x7b") = .ok (signatures ++ signatures') := by
  have hl : Language.c ∈ [Language.c, .cpp, .swift, .php] := by decide
  have hx : ';' ∈ boundaries := by decide
  have hb : '\x00' ∉ ("int f(int a) \x7b g(a)" : String).toList := by decide
  have ha : '\x00' ∉ (" \x7d int h() \x7b" : String).toList := by decide
  have hc : Closed ("int f(int a) \x7b g(a)" : String).toList := by decide
  exact ⟨⟨hl, hx, hb, ha, hc⟩, extract_append_boundary hl hx hb ha hc⟩

end Rule.Builtin

end CodeOutline
