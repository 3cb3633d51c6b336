import CodeOutline.Extraction
import CodeOutline.Proofs.Regex.Search
import CodeOutline.Proofs.Text.Blank

/-! # Parts of the built-in patterns

What the parts that the built-in patterns share read of a declaration: words of letters, digits and
underscores, blanks between them, arguments up to their closing parenthesis, and results up to the
character that comes after them.
-/

namespace CodeOutline.Regex

@[simp] theorem Capture.text_mk (name : String) (o : Nat) (b : Option Char) (u v : List Char) :
    (⟨name, ⟨o, b, u ++ v⟩, o + u.length⟩ : Capture).text = u := by
  simp [Capture.text, Cursor.textTo]

/-- The text captured last under a name. -/
def captured (ks : Captures) (name : String) : List Char :=
  ((ks.find? name).map (·.text)).getD []

@[simp] theorem captured_nil (name : String) : captured [] name = [] := rfl

@[simp] theorem captured_cons (k : Capture) (ks : Captures) (name : String) :
    captured (k :: ks) name = if k.name == name then k.text else captured ks name := by
  rw [captured, Captures.find?, List.find?_cons]
  split <;> simp_all [captured, Captures.find?]

theorem Refuses.group {k : Follow} {t : List Char} (h : Refuses k t)
    (f : Cursor → Captures → Captures) : Refuses (fun d ks => k d (f d ks)) t :=
  fun o b _ => h o b _

end CodeOutline.Regex

namespace CodeOutline.Rule.Builtin

open Regex

/-- `[A-Za-z0-9_]+` -/
def IsWord (n : List Char) : Prop :=
  n ≠ [] ∧ ∀ x ∈ n, isNameChar x = true

/-- `[A-Za-z_][A-Za-z0-9_]*` -/
def IsIdentifier (n : List Char) : Prop :=
  ∃ x u, n = x :: u ∧ isNameStart x = true ∧ ∀ y ∈ u, isNameChar y = true

instance (n : List Char) : Decidable (IsWord n) :=
  decidable_of_iff (n ≠ [] ∧ n.all isNameChar = true) (by rw [List.all_eq_true, IsWord])

instance : (n : List Char) → Decidable (IsIdentifier n)
  | [] => isFalse fun ⟨_, _, h, _⟩ => List.cons_ne_nil _ _ h.symm
  | x :: u => decidable_of_iff (isNameStart x = true ∧ u.all isNameChar = true) <| by
    rw [List.all_eq_true]
    exact ⟨fun h => ⟨x, u, rfl, h⟩, fun ⟨_, _, he, h⟩ => by cases he; exact h⟩

variable {P : Cursor → Captures → Prop} {k : Follow} {ks : Captures} {o : Nat} {b : Option Char}
  {x : Char} {a n u v : List Char}

theorem isNameChar_of_isNameStart (h : isNameStart x = true) : isNameChar x = true := by
  rw [isNameStart, Bool.or_eq_true] at h
  rw [isNameChar, Char.isAlphanum, Bool.or_eq_true, Bool.or_eq_true]
  exact h.imp_left Or.inl

theorem code_of_isNameChar (h : isNameChar x = true) :
    (48 ≤ x.toNat ∧ x.toNat ≤ 57) ∨ (65 ≤ x.toNat ∧ x.toNat ≤ 90) ∨ x.toNat = 95 ∨
      (97 ≤ x.toNat ∧ x.toNat ≤ 122) := by
  rw [← contains_nameChar] at h
  simp only [CharSet.contains, nameChar, List.any_cons, List.any_nil, Bool.or_false,
    Bool.or_eq_true, Bool.and_eq_true, decide_eq_true_eq] at h
  omega

theorem isWord_of_isNameChar (h : isNameChar x = true) : Look.isWord true (some x) = true := by
  have := code_of_isNameChar h
  rw [Look.isWord, if_pos rfl, Unicode.isWordChar, if_pos (by omega)]
  exact h

theorem isBlank_of_isNameChar (h : isNameChar x = true) : Text.isBlank x = false := by
  have := code_of_isNameChar h
  rw [← CharSet.contains_blank]
  simp [CharSet.contains, CharSet.blank, Unicode.blankRanges]
  omega

theorem isNameChar_of_isBlank (h : Text.isBlank x = true) : isNameChar x = false := by
  rw [← Bool.not_eq_true]
  intro hc
  rw [isBlank_of_isNameChar hc] at h
  cases h

theorem IsIdentifier.isWord (h : IsIdentifier n) : IsWord n := by
  obtain ⟨x, u, rfl, hx, hu⟩ := h
  refine ⟨List.cons_ne_nil x u, fun y hy => ?_⟩
  rcases List.mem_cons.mp hy with rfl | hy
  · exact isNameChar_of_isNameStart hx
  · exact hu y hy

theorem IsWord.opens (h : IsWord n) (v : List Char) : Opens (n ++ v) := by
  obtain ⟨hne, hn⟩ := h
  cases n with
  | nil => exact absurd rfl hne
  | cons x u =>
    intro y hy
    obtain rfl : x = y := by simpa using hy
    exact isBlank_of_isNameChar (hn x List.mem_cons_self)

theorem IsWord.head?_ne (h : IsWord n) (v : List Char) (hx : isNameChar x = false) :
    (n ++ v).head? ≠ some x := by
  obtain ⟨hne, hn⟩ := h
  cases n with
  | nil => exact absurd rfl hne
  | cons y u =>
    intro hy
    obtain rfl : y = x := by simpa using hy
    have := hn y List.mem_cons_self
    rw [hx] at this
    cases this

theorem IsWord.not_mem (h : IsWord n) (hx : isNameChar x = false) : x ∉ n := by
  intro hn
  rw [h.2 x hn] at hx
  cases hx

theorem IsWord.trimChars_eq (h : IsWord n) : Text.trimChars n = n :=
  Text.trimChars_eq_self fun x hx => isBlank_of_isNameChar (h.2 x hx)

theorem opens_cons (h : Text.isBlank x = false) : Opens (x :: v) := by
  intro y hy
  obtain rfl : x = y := by simpa using hy
  exact h

/-! ## Keywords -/

theorem reachAll?_letters (w : List Char) (rs : List Regex) :
    reachAll? (letters w ++ rs) k ⟨o, b, w ++ v⟩ ks =
      reachAll? rs k ⟨o + w.length, lastOf b w, v⟩ ks := by
  induction w generalizing o b with
  | nil => rfl
  | cons x w ih =>
    have ho : o + (x :: w).length = o + 1 + w.length := by rw [List.length_cons]; omega
    rw [ho]
    change (Regex.char x).reach? (reachAll? (letters w ++ rs) k) ⟨o, b, x :: (w ++ v)⟩ ks = _
    rw [reach?_char_cons, if_pos rfl, ih]
    rfl

theorem reaches_letters {w : List Char} {rs : List Regex}
    (h : Reaches P (reachAll? rs k ⟨o + w.length, lastOf b w, v⟩ ks)) :
    Reaches P (reachAll? (letters w ++ rs) k ⟨o, b, w ++ v⟩ ks) := by
  rwa [reachAll?_letters]

theorem refuses_letters {w : List Char} {rs : List Regex} (h : v.head? ≠ some x) :
    Refuses (reachAll? (letters (x :: w) ++ rs) k) v :=
  refuses_char h

theorem reaches_edge (hb : Look.isWord true b = false) (hx : isNameChar x = true)
    (h : Reaches P (k ⟨o, b, x :: v⟩ ks)) : Reaches P (edge.reach? k ⟨o, b, x :: v⟩ ks) := by
  have hl : Look.holds (.wordEdge true) b (some x) = true := by
    rw [Look.holds, hb, isWord_of_isNameChar hx, Bool.bne_true, Bool.not_false]
  rwa [edge, reach?_look, List.head?_cons, if_pos hl]

theorem reaches_keyword {w : List Char} {rs : List Regex} (hb : Look.isWord true b = false)
    (hx : isNameChar x = true)
    (h : Reaches P (reachAll? rs k ⟨o + (x :: w).length, lastOf b (x :: w), v⟩ ks)) :
    Reaches P (reachAll? ([edge] ++ letters (x :: w) ++ rs) k ⟨o, b, (x :: w) ++ v⟩ ks) := by
  rw [List.append_assoc, List.singleton_append, reachAll?_cons, List.cons_append]
  exact reaches_edge hb hx (reaches_letters h)

theorem refuses_keyword {w : List Char} {rs : List Regex} (h : v.head? ≠ some x) :
    Refuses (reachAll? ([edge] ++ letters (x :: w) ++ rs) k) v :=
  refuses_look (refuses_char h)

/-! ## Words -/

theorem contains_of_isNameChar {s : CharSet}
    (hs : ∀ r ∈ nameChar.ranges, ∃ r' ∈ s.ranges, r'.1 ≤ r.1 ∧ r.2 ≤ r'.2)
    (h : isNameChar x = true) :
    s.contains x = true := by
  rw [← contains_nameChar, CharSet.contains_iff] at h
  obtain ⟨r, hr, hl, hu⟩ := h
  obtain ⟨r', hr', hl', hu'⟩ := hs r hr
  exact CharSet.contains_iff.mpr ⟨r', hr', Nat.le_trans hl' hl, Nat.le_trans hu hu'⟩

theorem reaches_word {s : CharSet} (hn : IsWord n)
    (hs : ∀ x, isNameChar x = true → s.contains x = true)
    (hv : ∀ x ∈ v.head?, s.contains x = false)
    (h : Reaches P (k ⟨o + n.length, lastOf b n, v⟩ ks)) :
    Reaches P ((plus true (.set s)).reach? k ⟨o, b, n ++ v⟩ ks) :=
  reaches_plus_set hn.1 (fun x hx => hs x (hn.2 x hx)) hv h

theorem reaches_wordOf (hn : IsWord n) (hv : ∀ x ∈ v.head?, isNameChar x = false)
    (h : Reaches P (k ⟨o + n.length, lastOf b n, v⟩ ks)) :
    Reaches P (wordOf.reach? k ⟨o, b, n ++ v⟩ ks) :=
  reaches_word hn (fun x hx => by rwa [contains_nameChar])
    (fun x hx => by rw [contains_nameChar, hv x hx]) h

theorem reaches_identifier (hn : IsIdentifier n) (hv : ∀ x ∈ v.head?, isNameChar x = false)
    (h : Reaches P (k ⟨o + n.length, lastOf b n, v⟩ ks)) :
    Reaches P (identifier.reach? k ⟨o, b, n ++ v⟩ ks) := by
  obtain ⟨x, u, rfl, hx, hu⟩ := hn
  have ho : o + (x :: u).length = o + 1 + u.length := by rw [List.length_cons]; omega
  rw [ho] at h
  rw [identifier, reach?_seq, List.cons_append, reach?_set_cons, contains_nameStart, if_pos hx]
  exact reaches_star_set (fun y hy => by rw [contains_nameChar, hu y hy])
    (fun y hy => by rw [contains_nameChar, hv y hy]) h

/-- A word of a set is refused when a character comes after it that is neither in the word nor
right behind it. -/
theorem refuses_plus_set_char {s : CharSet} {x y : Char} (hy : s.contains y = false) (hn : x ∉ n)
    (hxy : x ≠ y) :
    Refuses ((plus true (.set s)).reach? ((Regex.char x).reach? k)) (n ++ y :: v) := by
  refine refuses_plus_set fun z u w ht hu => refuses_char ?_
  rcases List.append_eq_append_iff.mp (show n ++ y :: v = (z :: u) ++ w from ht) with
    ⟨u', hu', hw⟩ | ⟨n', hn', rfl⟩
  · cases u' with
    | nil =>
      rw [List.nil_append] at hw
      rw [← hw, List.head?_cons, ne_eq, Option.some.injEq]
      exact hxy.symm
    | cons y' u' =>
      obtain ⟨rfl, _⟩ := List.cons.inj hw
      have := hu y (by rw [hu']; simp)
      rw [hy] at this
      cases this
  · cases n' with
    | nil =>
      rw [List.nil_append, List.head?_cons, ne_eq, Option.some.injEq]
      exact hxy.symm
    | cons z' n' =>
      rw [List.cons_append, List.head?_cons, ne_eq, Option.some.injEq]
      rintro rfl
      exact hn (by rw [hn']; simp)

/-! ## Blanks -/

theorem reaches_blanks (hu : Text.Blank u) (hv : Opens v)
    (h : Reaches P (k ⟨o + u.length, lastOf b u, v⟩ ks)) :
    Reaches P (blanks.reach? k ⟨o, b, u ++ v⟩ ks) :=
  reaches_star_set (fun x hx => by rw [CharSet.contains_blank, hu x hx])
    (fun x hx => by rw [CharSet.contains_blank, hv x hx]) h

theorem reaches_no_blanks (hv : Opens v) (h : Reaches P (k ⟨o, b, v⟩ ks)) :
    Reaches P (blanks.reach? k ⟨o, b, v⟩ ks) :=
  reaches_blanks (u := []) (by simp [Text.Blank]) hv h

theorem blank_space : Text.Blank [' '] := by
  simp [Text.Blank, Text.isBlank]

theorem reaches_blanks_space (hv : Opens v) (h : Reaches P (k ⟨o + 1, some ' ', v⟩ ks)) :
    Reaches P (blanks.reach? k ⟨o, b, ' ' :: v⟩ ks) :=
  reaches_blanks blank_space hv h

theorem reaches_someBlanks_space (hv : Opens v) (h : Reaches P (k ⟨o + 1, some ' ', v⟩ ks)) :
    Reaches P (someBlanks.reach? k ⟨o, b, ' ' :: v⟩ ks) :=
  reaches_plus_set (u := [' ']) (List.cons_ne_nil _ _)
    (fun x hx => by rw [CharSet.contains_blank, blank_space x hx])
    (fun x hx => by rw [CharSet.contains_blank, hv x hx]) h

theorem refuses_someBlanks_space (hv : Opens v) (h : Refuses k v) :
    Refuses (someBlanks.reach? k) (' ' :: v) := by
  refine refuses_plus_set fun x u w ht hu => ?_
  obtain ⟨rfl, hw⟩ := List.cons.inj ht
  cases u with
  | nil => rwa [hw] at h
  | cons y u =>
    rw [hw] at hv
    have := hu y (by simp)
    rw [CharSet.contains_blank, hv y rfl] at this
    cases this

theorem refuses_someBlanks (hv : Opens v) : Refuses (someBlanks.reach? k) v :=
  refuses_plus_set_of_head fun x hx => by rw [CharSet.contains_blank, hv x hx]

/-- A keyword with blanks after it is no start of a word that a parenthesis comes after. -/
theorem refuses_letters_word {w : List Char} (hw : '(' ∉ w)
    (hn : ∀ x ∈ n, isNameChar x = true) :
    Refuses (reachAll? (letters w) (someBlanks.reach? k)) (n ++ '(' :: v) := by
  induction w generalizing n with
  | nil =>
    refine refuses_someBlanks ?_
    cases n with
    | nil => exact opens_cons rfl
    | cons x n => exact opens_cons (isBlank_of_isNameChar (hn x List.mem_cons_self))
  | cons y w ih =>
    have hy : '(' ≠ y := List.ne_of_not_mem_cons hw
    intro o b ks
    change (Regex.char y).reach? (reachAll? (letters w) (someBlanks.reach? k)) _ ks = none
    cases n with
    | nil => rw [List.nil_append, reach?_char_cons, if_neg hy]
    | cons x n =>
      rw [List.cons_append, reach?_char_cons]
      split
      · exact ih (List.not_mem_of_not_mem_cons hw)
          (fun z hz => hn z (List.mem_cons_of_mem x hz)) _ _ ks
      · rfl

theorem refuses_blanks {t : List Char} (h : ∀ u v, t = u ++ v → Text.Blank u → Refuses k v) :
    Refuses (blanks.reach? k) t :=
  refuses_star_set fun u v ht hu =>
    h u v ht fun x hx => by rw [← CharSet.contains_blank, hu x hx]

theorem refuses_no_blanks (hv : Opens v) (h : Refuses k v) : Refuses (blanks.reach? k) v := by
  refine refuses_blanks fun u w hw hu => ?_
  cases u with
  | nil => rwa [hw] at h
  | cons x u =>
    rw [hw] at hv
    exact absurd (hu x List.mem_cons_self) (by rw [hv x rfl]; exact Bool.false_ne_true)

theorem refuses_blanks_space (hv : Opens v) (hs : Refuses k (' ' :: v)) (h : Refuses k v) :
    Refuses (blanks.reach? k) (' ' :: v) := by
  intro o b ks
  rw [blanks, blank, reach?_star_set_cons, hs, Option.or_none]
  split
  · exact refuses_no_blanks hv h _ _ _
  · rfl

theorem refuses_blanks_char {m : List Char} (hm : x ∉ m) (hb : ¬ Text.Blank m) :
    Refuses (blanks.reach? ((Regex.char x).reach? k)) (m ++ x :: v) := by
  refine refuses_blanks fun u w ht hu => refuses_char ?_
  rcases List.append_eq_append_iff.mp ht with ⟨u', rfl, _⟩ | ⟨m', rfl, rfl⟩
  · exact absurd (fun y hy => hu y (List.mem_append_left u' hy)) hb
  · cases m' with
    | nil => exact absurd (by rwa [List.append_nil]) hb
    | cons y m' =>
      rw [List.cons_append, List.head?_cons, ne_eq, Option.some.injEq]
      rintro rfl
      exact hm (by simp)

/-! ## Arguments -/

theorem contains_untilParenthesis :
    (CharSet.complement ⟨[(0x29, 0x29)]⟩).contains x = (x != ')') := by
  rw [CharSet.contains_complement_code, Bool.eq_iff_iff, bne_iff_ne, bne_iff_ne, ne_eq, ne_eq,
    not_iff_not]
  exact Char.toNat_inj (d := ')')

theorem reaches_untilParenthesis (ha : ')' ∉ a)
    (h : Reaches P (k ⟨o + a.length, lastOf b a, ')' :: v⟩ ks)) :
    Reaches P (untilParenthesis.reach? k ⟨o, b, a ++ ')' :: v⟩ ks) := by
  refine reaches_star_set (fun x hx => ?_) (fun x hx => ?_) h
  · rw [contains_untilParenthesis, bne_iff_ne]
    rintro rfl
    exact ha hx
  · obtain rfl : ')' = x := by simpa using hx
    rw [contains_untilParenthesis]
    rfl

theorem reaches_shortest_char {f : Cursor → Captures → Captures} (ha : x ∉ a)
    (h : Reaches P ((Regex.char x).reach? k ⟨o + a.length, lastOf b a, x :: v⟩
      (f ⟨o + a.length, lastOf b a, x :: v⟩ ks))) :
    Reaches P (shortest.reach? (fun d ks => (Regex.char x).reach? k d (f d ks))
      ⟨o, b, a ++ x :: v⟩ ks) := by
  refine reaches_lazyStar_set (fun y _ => CharSet.contains_any y) (fun p y q hpq => ?_) h
  refine Refuses.group (refuses_char ?_) f
  rw [List.head?_cons, ne_eq, Option.some.injEq]
  rintro rfl
  exact ha (by rw [hpq]; simp)

/-! ## Heads of declarations -/

section Heads

variable {rs : List Regex} {name : String}

/-- The expression reads a name before an opening parenthesis. -/
def Names (r : Regex) (n : List Char) : Prop :=
  ∀ P k ks o b v, Reaches P (k ⟨o + n.length, lastOf b n, '(' :: v⟩ ks) →
    Reaches P (r.reach? k ⟨o, b, n ++ '(' :: v⟩ ks)

theorem isNameChar_head_parenthesis (v : List Char) :
    ∀ x ∈ ('(' :: v).head?, isNameChar x = false := by
  simp; decide

theorem names_wordOf (hn : IsWord n) : Names wordOf n :=
  fun _ _ _ _ _ v h => reaches_wordOf hn (isNameChar_head_parenthesis v) h

theorem names_identifier (hn : IsIdentifier n) : Names identifier n :=
  fun _ _ _ _ _ v h => reaches_identifier hn (isNameChar_head_parenthesis v) h

theorem reaches_name {r : Regex} (hr : Names r n)
    (h : Reaches P (reachAll? rs k ⟨o + n.length, lastOf b n, '(' :: v⟩
      (⟨name, ⟨o, b, n ++ '(' :: v⟩, o + n.length⟩ :: ks))) :
    Reaches P (reachAll? (.group name r :: rs) k ⟨o, b, n ++ '(' :: v⟩ ks) := by
  rw [reachAll?_cons, reach?_group]
  exact hr _ _ _ _ _ _ h

theorem reaches_opening (h : Reaches P (reachAll? rs k ⟨o + 1, some '(', v⟩ ks)) :
    Reaches P (reachAll? (blanks :: openParenthesis :: rs) k ⟨o, b, '(' :: v⟩ ks) := by
  refine reaches_no_blanks (opens_cons rfl) ?_
  rwa [reachAll?_cons, openParenthesis, reach?_char_cons, if_pos rfl]

theorem reaches_brace (h : Reaches P (k ⟨o + 1, some '\x7b', v⟩ ks)) :
    Reaches P (reachAll? [blanks, openBrace] k ⟨o, b, '\x7b' :: v⟩ ks) := by
  refine reaches_no_blanks (opens_cons rfl) ?_
  rwa [reachAll?_cons, openBrace, reach?_char_cons, if_pos rfl]

theorem reaches_space_brace (h : Reaches P (k ⟨o + 1 + 1, some '\x7b', v⟩ ks)) :
    Reaches P (reachAll? [blanks, openBrace] k ⟨o, b, ' ' :: '\x7b' :: v⟩ ks) := by
  refine reaches_blanks_space (opens_cons rfl) ?_
  rwa [reachAll?_cons, openBrace, reach?_char_cons, if_pos rfl]

/-- The expression reads arguments up to their closing parenthesis. -/
def Delimits (r : Regex) (a : List Char) : Prop :=
  ∀ P (k : Follow) (f : Cursor → Captures → Captures) ks o b v,
    Reaches P (k ⟨o + a.length + 1, some ')', v⟩ (f ⟨o + a.length, lastOf b a, ')' :: v⟩ ks)) →
      Reaches P (r.reach? (fun d ks => closeParenthesis.reach? k d (f d ks))
        ⟨o, b, a ++ ')' :: v⟩ ks)

theorem delimits_untilParenthesis (ha : ')' ∉ a) : Delimits untilParenthesis a := by
  intro P k f ks o b v h
  refine reaches_untilParenthesis ha ?_
  rwa [closeParenthesis, reach?_char_cons, if_pos rfl]

theorem delimits_shortest (ha : ')' ∉ a) : Delimits shortest a := by
  intro P k f ks o b v h
  refine reaches_shortest_char ha ?_
  rwa [reach?_char_cons, if_pos rfl]

theorem reaches_arguments {r : Regex} (hr : Delimits r a)
    (h : Reaches P (reachAll? rs k ⟨o + a.length + 1, some ')', v⟩
      (⟨name, ⟨o, b, a ++ ')' :: v⟩, o + a.length⟩ :: ks))) :
    Reaches P (reachAll? (.group name r :: closeParenthesis :: rs) k
      ⟨o, b, a ++ ')' :: v⟩ ks) := by
  rw [reachAll?_cons, reach?_group]
  exact hr P (reachAll? rs k) (fun d ks => ⟨name, ⟨o, b, a ++ ')' :: v⟩, d.offset⟩ :: ks)
    ks o b v h

/-- The shortest arguments go on over a closing parenthesis when what follows refuses the text
after it. -/
theorem reaches_arguments_over {w : List Char} (ha : ')' ∉ a) (hw : ')' ∉ w)
    (hr : Refuses (reachAll? rs k) (w ++ ')' :: v))
    (h : Reaches P (reachAll? rs k ⟨o + (a ++ ')' :: w).length + 1, some ')', v⟩
      (⟨name, ⟨o, b, (a ++ ')' :: w) ++ ')' :: v⟩, o + (a ++ ')' :: w).length⟩ :: ks))) :
    Reaches P (reachAll? (.group name shortest :: closeParenthesis :: rs) k
      ⟨o, b, (a ++ ')' :: w) ++ ')' :: v⟩ ks) := by
  rw [reachAll?_cons, reach?_group]
  refine reaches_lazyStar_set (fun y _ => CharSet.contains_any y) (fun p x q hpq => ?_) ?_
  · -- Before the first parenthesis the text after it is refused, and elsewhere the parenthesis.
    refine Refuses.group (fun o b ks => ?_) _
    rw [reachAll?_cons, closeParenthesis, reach?_char_cons]
    split
    · rename_i hx
      subst hx
      obtain ⟨rfl, _, rfl⟩ := (List.append_cons_inj_of_notMem ha hw).mp hpq
      exact hr _ _ _
    · rfl
  · rwa [reachAll?_cons, closeParenthesis, reach?_char_cons, if_pos rfl]

end Heads

/-! ## Results -/

theorem collapseChars_spaces (r : List Char) :
    Text.collapseChars (' ' :: (r ++ [' '])) = Text.collapseChars r :=
  (Text.collapseChars_blank_append blank_space (r ++ [' '])).trans
    (Text.collapseChars_append_blank blank_space r)

/-- A loop that reads a text when what follows refuses every shorter one. -/
def Stretches (r : Regex) (u : List Char) : Prop :=
  ∀ P k ks o b v, (∀ p x q, u = p ++ x :: q → Refuses k (x :: (q ++ v))) →
    Reaches P (k ⟨o + u.length, lastOf b u, v⟩ ks) → Reaches P (r.reach? k ⟨o, b, u ++ v⟩ ks)

theorem stretches_shortest (u : List Char) : Stretches shortest u :=
  fun _ _ _ _ _ _ hr h => reaches_lazyStar_set (fun y _ => CharSet.contains_any y) hr h

theorem stretches_lazyPlus {s : CharSet} (hne : u ≠ []) (hu : ∀ x ∈ u, s.contains x = true) :
    Stretches (.plus false (.set s)) u :=
  fun _ _ _ _ _ _ hr h => reaches_lazyPlus_set hne hu hr h

theorem reaches_result_blanks_char {name : String} {r : Regex} {t w : List Char}
    (hr : ∀ u, (∀ y ∈ u, y ∈ w) → (u = [] → Text.Blank w) → Stretches r u)
    (ht : t = w ++ x :: v) (hx : Text.isBlank x = false) (hw : x ∉ w)
    (h : ∀ o b κ, κ.name = name → Text.collapseChars κ.text = Text.collapseChars w →
      Reaches P (k ⟨o, b, v⟩ (κ :: ks))) :
    Reaches P (reachAll? [blanks, .group name r] (reachAll? [blanks, .char x] k)
      ⟨o, b, t⟩ ks) := by
  subst ht
  obtain ⟨lead, u, trail, rfl, hl, htr, hu, hcore⟩ := Text.exists_eq_core w
  have hop : Opens (u ++ (trail ++ x :: v)) := by
    rw [← List.append_assoc]
    cases hut : u ++ trail with
    | nil => exact opens_cons hx
    | cons y m => exact opens_cons (hu y (by rw [hut]; rfl))
  have hblank : u = [] → Text.Blank (lead ++ (u ++ trail)) := by
    rintro rfl y hy
    exact (List.mem_append.mp hy).elim (hl y) (htr y)
  rw [List.append_assoc, List.append_assoc]
  refine reaches_blanks hl hop ?_
  rw [reachAll?_cons, reach?_group]
  refine hr u (fun y hy => by simp [hy]) hblank _ _ _ _ _ _ (fun p y q hpq => ?_) ?_
  · -- A shorter result would leave something other than blanks before the character.
    have hm : x ∉ y :: q ++ trail := by
      intro hxm
      refine hw (List.mem_append_right lead ?_)
      rw [hpq, List.append_assoc]
      exact List.mem_append_right p hxm
    have hb : ¬ Text.Blank (y :: q ++ trail) :=
      fun hb => hcore p y q hpq fun z hz => hb z (List.mem_append_left trail hz)
    have := refuses_blanks_char (k := k) (v := v) hm hb
    rw [List.append_assoc] at this
    exact this.group _
  · refine reaches_blanks htr (opens_cons hx) ?_
    rw [reachAll?_cons, reach?_char_cons, if_pos rfl]
    refine h _ _ _ rfl ?_
    rw [Capture.text_mk, Text.collapseChars_blank_append hl, Text.collapseChars_append_blank htr]

end CodeOutline.Rule.Builtin
