import CodeOutline.Proofs.Text.Blank

/-! # Line ends of two characters

A text with a carriage return before each line feed has the words of the text without them.
-/

namespace CodeOutline.Text

/-- The text with a carriage return put before each line feed. -/
def crlfChars : List Char → List Char
  | [] => []
  | x :: t => if x = '\n' then '\r' :: '\n' :: crlfChars t else x :: crlfChars t

/-- Each line feed becomes a carriage return and a line feed. -/
def crlf (s : String) : String :=
  String.ofList (crlfChars s.toList)

variable {x : Char} {t u v w w' lead trail : List Char}

@[simp] theorem crlfChars_lineFeed (t : List Char) :
    crlfChars ('\n' :: t) = '\r' :: '\n' :: crlfChars t := rfl

theorem crlfChars_cons (h : x ≠ '\n') (t : List Char) :
    crlfChars (x :: t) = x :: crlfChars t := by
  rw [crlfChars, if_neg h]

theorem crlfChars_append (u v : List Char) :
    crlfChars (u ++ v) = crlfChars u ++ crlfChars v := by
  induction u with
  | nil => rfl
  | cons x u ih =>
    by_cases h : x = '\n'
    · subst h
      simp [ih]
    · rw [List.cons_append, crlfChars_cons h, crlfChars_cons h, ih, List.cons_append]

theorem mem_crlfChars (hx : x ≠ '\r') : x ∈ crlfChars t ↔ x ∈ t := by
  induction t with
  | nil => exact Iff.rfl
  | cons y t ih =>
    by_cases h : y = '\n'
    · subst h
      rw [crlfChars_lineFeed, List.mem_cons, or_iff_right hx, List.mem_cons, List.mem_cons, ih]
    · rw [crlfChars_cons h, List.mem_cons, List.mem_cons, ih]

theorem gatherWords_crlfChars (word : List Char) (done : List (List Char)) (t : List Char) :
    gatherWords word done (crlfChars t) = gatherWords word done t := by
  have hr : isBlank '\r' = true := rfl
  have hn : isBlank '\n' = true := rfl
  induction t generalizing word done with
  | nil => rfl
  | cons x t ih =>
    by_cases h : x = '\n'
    · subst h
      simp only [crlfChars_lineFeed, gatherWords, hr, hn, if_true, List.isEmpty_nil, ih]
    · rw [crlfChars_cons h, gatherWords, gatherWords, ih, ih]

theorem words_crlfChars (t : List Char) : words (crlfChars t) = words t :=
  gatherWords_crlfChars [] [] t

theorem words_pad (hl : Blank lead) (ht : Blank trail) (u : List Char) :
    words (lead ++ (u ++ trail)) = words u := by
  rw [words_blank_append hl, words_append_blank ht]

end CodeOutline.Text
