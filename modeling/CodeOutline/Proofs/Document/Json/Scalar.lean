import Mathlib.Data.List.Basic
import CodeOutline.Document.Json.Parser
import CodeOutline.Document.Json.Printer

/-! # Reading scalars

Every text and every whole number of 64 bits is read back from its written form. A text ends with
its closing quote, and a number before the first character that belongs to none.
-/

namespace CodeOutline.Document.Json

variable {c e : Char} {done rest u : List Char} {n fuel : Nat}

/-! ## Texts -/

theorem parseText_plain (hq : c ≠ '"') (hb : c ≠ '\\') (h : 32 ≤ c.toNat) :
    parseText done (c :: rest) = parseText (c :: done) rest := by
  rw [parseText.eq_def]
  split
  case h_5 heq =>
    obtain ⟨rfl, rfl⟩ := List.cons.inj heq
    simp [Nat.not_lt.mpr h, hb]
  all_goals simp_all

theorem parseText_escape (h : unescape? e = some c) :
    parseText done ('\\' :: e :: rest) = parseText (c :: done) rest := by
  have hu : e ≠ 'u' := by
    rintro rfl
    cases h
  rw [parseText.eq_def]
  simp [hu, h]

theorem hexQuad?_hexDigit : ∀ n < 32,
    hexQuad? '0' '0' (hexDigit (n / 16)) (hexDigit (n % 16)) = some n := by
  decide

theorem parseText_hex (h : c.toNat < 32) :
    parseText done
        ('\\' :: 'u' :: '0' :: '0' :: hexDigit (c.toNat / 16) :: hexDigit (c.toNat % 16) :: rest) =
      parseText (c :: done) rest := by
  have hh : isHighSurrogate c.toNat = false := by simp [isHighSurrogate]; omega
  have hl : isLowSurrogate c.toNat = false := by simp [isLowSurrogate]; omega
  rw [parseText, hexQuad?_hexDigit c.toNat h]
  simp [hh, hl]

theorem parseText_escapeChar (c : Char) (done rest : List Char) :
    parseText done (escapeChar c ++ rest) = parseText (c :: done) rest := by
  unfold escapeChar
  split
  · subst_vars; exact parseText_escape rfl
  split
  · subst_vars; exact parseText_escape rfl
  split
  · subst_vars; exact parseText_escape rfl
  split
  · subst_vars; exact parseText_escape rfl
  split
  · subst_vars; exact parseText_escape rfl
  split
  · subst_vars; exact parseText_escape rfl
  split
  · subst_vars; exact parseText_escape rfl
  split
  · exact parseText_hex ‹_›
  · exact parseText_plain ‹_› ‹_› (Nat.le_of_not_lt ‹_›)

theorem parseText_flatMap (cs done rest : List Char) :
    parseText done (cs.flatMap escapeChar ++ '"' :: rest) =
      some (String.ofList (done.reverse ++ cs), rest) := by
  induction cs generalizing done with
  | nil => simp [parseText]
  | cons c cs ih =>
    rw [List.flatMap_cons, List.append_assoc, parseText_escapeChar, ih, List.reverse_cons,
      List.append_assoc, List.singleton_append]

theorem parseText_quote (s : String) (rest : List Char) :
    ∃ u, quote s ++ rest = '"' :: u ∧ parseText [] u = some (s, rest) := by
  refine ⟨s.toList.flatMap escapeChar ++ '"' :: rest, by simp [quote], ?_⟩
  rw [parseText_flatMap, List.reverse_nil, List.nil_append, String.ofList_toList]

/-! ## Numbers -/

/-- What may come after a number: the end of the text, or a character that belongs to none. -/
def EndsNumber (rest : List Char) : Prop :=
  ∀ c ∈ rest.head?, isDigit c = false ∧ c ≠ '.' ∧ c ≠ 'e' ∧ c ≠ 'E'

theorem isDigit_eq (c : Char) : isDigit c = c.isDigit := by
  rw [Bool.eq_iff_iff, isDigit, Char.isDigit]
  simp [Char.le_def]

theorem parseFraction_of_ends (h : EndsNumber rest) : parseFraction rest = some ([], rest) := by
  unfold parseFraction
  split
  · exact absurd rfl (h '.' rfl).2.1
  · rfl

theorem parseExponent_of_ends (h : EndsNumber rest) : parseExponent rest = some ([], rest) := by
  cases rest with
  | nil => rfl
  | cons c rest =>
    obtain ⟨_, _, he, hE⟩ := h c rfl
    simp [parseExponent, he, hE]

theorem isDigit_of_mem_toDigits (h : c ∈ Nat.toDigits 10 n) : isDigit c = true := by
  rw [isDigit_eq]
  exact Nat.isDigit_of_mem_toDigits (by decide) (by decide) h

theorem digitsValue_toDigits (n : Nat) : digitsValue (Nat.toDigits 10 n) = n := by
  have h := Nat.ofDigitChars_ten_toDigits (n := n)
  simp only [Nat.ofDigitChars_eq_foldl, Nat.mul_comm 10] at h
  exact h

/-- A number other than zero is written without a zero in front. -/
theorem head?_toDigits_ne (h : 0 < n) : (Nat.toDigits 10 n).head? ≠ some '0' := by
  induction n using Nat.strongRecOn with
  | ind n ih =>
    by_cases hn : n < 10
    · rw [Nat.toDigits_of_lt_base hn, List.head?_cons, ne_eq, Option.some.injEq,
        Nat.digitChar_eq_zero]
      omega
    · rw [Nat.toDigits_of_base_le (by decide) (Nat.le_of_not_lt hn), List.head?_append,
        Option.or_of_isSome (by simp [Nat.toDigits_ne_nil])]
      exact ih (n / 10) (by omega) (by omega)

theorem takeWhile_digits {ds : List Char} (hd : ∀ c ∈ ds, isDigit c = true)
    (hrest : EndsNumber rest) : (ds ++ rest).takeWhile isDigit = ds := by
  rw [List.takeWhile_append_of_pos hd]
  cases rest with
  | nil => simp
  | cons c rest => simp [(hrest c rfl).1]

theorem dropWhile_digits {ds : List Char} (hd : ∀ c ∈ ds, isDigit c = true)
    (hrest : EndsNumber rest) : (ds ++ rest).dropWhile isDigit = rest := by
  rw [List.dropWhile_append_of_pos hd]
  cases rest with
  | nil => rfl
  | cons c rest => simp [(hrest c rfl).1]

/-- The number of a sign and digits. -/
def signed (negative : Bool) (n : Nat) : Int :=
  if negative then -(n : Int) else n

theorem parseMagnitude_toDigits (negative : Bool) (hrest : EndsNumber rest)
    (hn : negative = true → n ≠ 0) (hfits : Value.fitsInteger (signed negative n) = true) :
    parseMagnitude negative (Nat.toDigits 10 n ++ rest) =
      some (.integer (signed negative n), rest) := by
  have hd : ∀ c ∈ Nat.toDigits 10 n, isDigit c = true := fun c => isDigit_of_mem_toDigits
  have hlead : ((Nat.toDigits 10 n).isEmpty ||
      (decide ((Nat.toDigits 10 n).length > 1) && (Nat.toDigits 10 n).head? == some '0')) =
        false := by
    rcases Nat.eq_zero_or_pos n with rfl | hpos
    · rfl
    · simp [Nat.toDigits_ne_nil, head?_toDigits_ne hpos]
  have hzero : (negative && signed negative n == 0) = false := by
    cases negative with
    | false => rfl
    | true => simpa [signed] using hn rfl
  rw [parseMagnitude]
  simp only [takeWhile_digits hd hrest, dropWhile_digits hd hrest, hlead,
    parseFraction_of_ends hrest, parseExponent_of_ends hrest, digitsValue_toDigits]
  rw [← signed]
  simp [hzero, hfits]

theorem toList_toString_int (n : Int) : (toString n).toList =
    (if n < 0 then ['-'] else []) ++ Nat.toDigits 10 n.natAbs := by
  have ht : toString n = n.repr := rfl
  rw [ht, Int.repr_eq_if]
  split
  · rw [if_neg (by omega), Nat.toList_repr, List.nil_append]
    congr 1
    omega
  · rw [if_pos (by omega), String.toList_append, Nat.toList_repr]
    congr 2
    omega

theorem toString_head (n : Int) :
    ∃ x u, (toString n).toList = x :: u ∧ (x = '-' ∨ isDigit x = true) := by
  rw [toList_toString_int]
  split
  · exact ⟨'-', _, rfl, Or.inl rfl⟩
  · obtain ⟨x, u, hx⟩ :=
      List.exists_cons_of_ne_nil (Nat.toDigits_ne_nil (n := n.natAbs) (b := 10))
    exact ⟨x, u, hx, Or.inr (isDigit_of_mem_toDigits (n := n.natAbs) (by simp [hx]))⟩

theorem parseNumber_toString {n : Int} (h : Value.fitsInteger n = true)
    (hrest : EndsNumber rest) :
    parseNumber ((toString n).toList ++ rest) = some (.integer n, rest) := by
  rw [toList_toString_int]
  split
  · have hs : signed true n.natAbs = n := by rw [signed, if_pos rfl]; omega
    have := parseMagnitude_toDigits true hrest (n := n.natAbs) (by omega)
      (by rwa [hs])
    rwa [hs] at this
  · have hs : signed false n.natAbs = n := by rw [signed, if_neg Bool.false_ne_true]; omega
    have := parseMagnitude_toDigits false hrest (n := n.natAbs) nofun
      (by rwa [hs])
    rw [hs] at this
    rw [List.nil_append, parseNumber]
    · exact this
    · intro u hu
      obtain ⟨x, ds, hx⟩ :=
        List.exists_cons_of_ne_nil (Nat.toDigits_ne_nil (n := n.natAbs) (b := 10))
      have hd := isDigit_of_mem_toDigits (c := x) (n := n.natAbs) (by simp [hx])
      rw [hx] at hu
      obtain ⟨rfl, _⟩ := List.cons.inj hu
      revert hd
      decide

theorem parseValue_of_number {x : Char} (hx : x = '-' ∨ isDigit x = true) :
    parseValue (fuel + 1) (x :: u) = parseNumber (x :: u) := by
  have hn : (['"', '[', '\x7b', 't', 'f', 'n'].any fun y => y == '-' || isDigit y) = false := by
    decide
  have hne : x ∉ ['"', '[', '\x7b', 't', 'f', 'n'] := fun h =>
    List.any_eq_false.mp hn x h (by simpa using hx)
  unfold parseValue
  split <;> simp_all

end CodeOutline.Document.Json
