import CodeOutline.Proofs.Report.Table

/-! # Cut cells

An arguments cell that is too long is cut after it is escaped. The cut keeps the escaped form of the
first characters of the arguments, unless it falls between the backslash and the bar of an escape:
then the backslash is left over, and what the cell shows is no part of the arguments.
-/

namespace CodeOutline.Report.Markdown

/-- The text of the arguments cell. -/
def argumentsCell (arguments : String) : String :=
  cutCell (escapeCell arguments)

/-- A cell shows the arguments, or the start of them and then three dots. -/
def Shows (cell arguments : String) : Prop :=
  cell = escapeCell arguments ∨
    ∃ shown rest, arguments = shown ++ rest ∧ cell = escapeCell shown ++ "..."

/-- The cut of a cell falls between the backslash and the bar of an escape, after what is shown. -/
structure CutsEscape (arguments : String) (shown rest : List Char) : Prop where
  parts : arguments.toList = shown ++ '|' :: rest
  /-- The cell is too long as it is. -/
  long : cellLimit < (escapeCell arguments).length
  at_backslash : (shown.flatMap escapeChar).length + 1 = cutLength

variable {t q u shown rest : List Char} {n : Nat} {arguments : String}

/-! ## Starts of escaped texts -/

theorem take_flatMap {α β : Type} (f : α → List β) (t : List α) (n : Nat) :
    ∃ shown rest, t = shown ++ rest ∧
      ((t.flatMap f).take n = shown.flatMap f ∨
        ∃ x after k, rest = x :: after ∧ 0 < k ∧ k < (f x).length ∧
          (shown.flatMap f).length + k = n) := by
  induction t generalizing n with
  | nil => exact ⟨[], [], rfl, Or.inl (by simp)⟩
  | cons x t ih =>
    rcases Nat.lt_or_ge n (f x).length with hn | hn
    · rcases Nat.eq_zero_or_pos n with rfl | hpos
      · exact ⟨[], x :: t, rfl, Or.inl (by simp)⟩
      · exact ⟨[], x :: t, rfl, Or.inr ⟨x, t, n, rfl, hpos, hn, by simp⟩⟩
    · obtain ⟨shown, rest, rfl, h⟩ := ih (n - (f x).length)
      refine ⟨x :: shown, rest, rfl, ?_⟩
      rcases h with h | ⟨y, after, k, rfl, hpos, hk, hl⟩
      · left
        rw [List.flatMap_cons, List.take_append, List.take_of_length_le hn, h, List.flatMap_cons]
      · right
        refine ⟨y, after, k, rfl, hpos, hk, ?_⟩
        rw [List.flatMap_cons, List.length_append]
        omega

/-- The start of an escaped text is an escaped start, or it ends with half an escape. -/
theorem take_escape (t : List Char) (n : Nat) :
    ∃ shown rest, t = shown ++ rest ∧
      ((t.flatMap escapeChar).take n = shown.flatMap escapeChar ∨
        ∃ after, rest = '|' :: after ∧ (shown.flatMap escapeChar).length + 1 = n) := by
  obtain ⟨shown, rest, ht, h⟩ := take_flatMap escapeChar t n
  refine ⟨shown, rest, ht, h.imp_right ?_⟩
  rintro ⟨x, after, k, rfl, hpos, hk, hl⟩
  unfold escapeChar at hk
  split at hk
  · rename_i hx
    have hk1 : k = 1 := by
      simp only [List.length_cons, List.length_nil] at hk
      omega
    exact ⟨after, by rw [hx], by rw [← hk1, hl]⟩
  · simp only [List.length_cons, List.length_nil] at hk
    omega

theorem unescape_escape_append (t : List Char) (hu : u.head? ≠ some '|') :
    unescape (t.flatMap escapeChar ++ u) = t ++ unescape u := by
  induction t with
  | nil => rfl
  | cons x t ih =>
    by_cases hx : x = '|'
    · subst hx
      exact congrArg (List.cons '|') ih
    · have hc : escapeChar x = [x] := if_neg hx
      have hhead : (t.flatMap escapeChar ++ u).head? ≠ some '|' := by
        rw [List.head?_append]
        cases ht : (t.flatMap escapeChar).head? with
        | none => simpa using hu
        | some y => simpa [ht] using head?_escape t
      rw [List.flatMap_cons, hc, List.append_assoc, List.singleton_append,
        unescape_cons fun _ => hhead, ih, List.cons_append]

/-! ## Cells -/

theorem toList_escapeCell (s : String) : (escapeCell s).toList = s.toList.flatMap escapeChar :=
  String.toList_ofList

theorem length_escapeCell (s : String) :
    (escapeCell s).length = (s.toList.flatMap escapeChar).length := by
  rw [← String.length_toList, toList_escapeCell]

theorem argumentsCell_of_short (h : ¬ cellLimit < (escapeCell arguments).length) :
    argumentsCell arguments = escapeCell arguments :=
  if_neg h

theorem toList_argumentsCell_of_long (h : cellLimit < (escapeCell arguments).length) :
    (argumentsCell arguments).toList =
      (arguments.toList.flatMap escapeChar).take cutLength ++ ['.', '.', '.'] := by
  have h' : (escapeCell arguments).toList.length > cellLimit := h
  rw [argumentsCell, cutCell, if_pos h', String.toList_ofList, toList_escapeCell]

theorem length_argumentsCell_le (arguments : String) :
    (argumentsCell arguments).length ≤ cellLimit := by
  by_cases h : cellLimit < (escapeCell arguments).length
  · rw [← String.length_toList, toList_argumentsCell_of_long h, List.length_append,
      List.length_take]
    simp only [cutLength, cellLimit, List.length_cons, List.length_nil]
    omega
  · rw [argumentsCell_of_short h]
    exact Nat.not_lt.mp h

theorem argumentsCell_cases (h : ∀ shown rest, ¬ CutsEscape arguments shown rest) :
    argumentsCell arguments = escapeCell arguments ∨
      ∃ shown rest, arguments = shown ++ rest ∧ rest ≠ "" ∧
        argumentsCell arguments = escapeCell shown ++ "..." := by
  by_cases hlong : cellLimit < (escapeCell arguments).length
  · obtain ⟨shown, rest, ht, hcut⟩ := take_escape arguments.toList cutLength
    rcases hcut with hcut | ⟨after, rfl, hl⟩
    · refine Or.inr ⟨String.ofList shown, String.ofList rest, ?_, ?_, ?_⟩
      · rw [← String.ofList_append, ← ht, String.ofList_toList]
      · intro hempty
        -- What is shown has fewer characters than the whole.
        have hrest : rest = [] := by simpa using congrArg String.toList hempty
        have hlen := congrArg List.length hcut
        rw [length_escapeCell, ht, hrest, List.append_nil] at hlong
        rw [List.length_take, ht, hrest, List.append_nil] at hlen
        simp only [cutLength, cellLimit] at hlen hlong
        omega
      · rw [← String.toList_inj, toList_argumentsCell_of_long hlong, hcut, String.toList_append,
          toList_escapeCell, String.toList_ofList]
        rfl
    · exact absurd ⟨ht, hlong, hl⟩ (h shown after)
  · exact Or.inl (argumentsCell_of_short hlong)

namespace CutsEscape

theorem toList_argumentsCell (h : CutsEscape arguments shown rest) :
    (argumentsCell arguments).toList = shown.flatMap escapeChar ++ ['\\', '.', '.', '.'] := by
  have hescape : (shown ++ '|' :: rest).flatMap escapeChar =
      (shown.flatMap escapeChar ++ ['\\']) ++ '|' :: rest.flatMap escapeChar := by
    simp [escapeChar]
  have hl : (shown.flatMap escapeChar ++ ['\\']).length = cutLength := by
    rw [List.length_append]
    exact h.at_backslash
  rw [toList_argumentsCell_of_long h.long, h.parts, hescape, List.take_left' hl, List.append_assoc]
  rfl

theorem unescape_argumentsCell (h : CutsEscape arguments shown rest) :
    unescape (argumentsCell arguments).toList = shown ++ ['\\', '.', '.', '.'] := by
  rw [h.toList_argumentsCell, unescape_escape_append _ (by decide)]
  rfl

theorem not_shows (h : CutsEscape arguments shown rest) :
    ¬ Shows (argumentsCell arguments) arguments := by
  rintro (hcell | ⟨start, after, harguments, hcell⟩)
  · have hle := length_argumentsCell_le arguments
    rw [hcell] at hle
    exact absurd h.long (Nat.not_lt.mpr hle)
  · have hu := h.unescape_argumentsCell
    rw [hcell, String.toList_append, toList_escapeCell,
      unescape_escape_append _ (by decide)] at hu
    have hstart : start.toList = shown ++ ['\\'] := by
      have hdots : shown ++ ['\\', '.', '.', '.'] = shown ++ ['\\'] ++ ['.', '.', '.'] := by simp
      exact List.append_cancel_right (hu.trans hdots)
    have hparts := h.parts
    rw [harguments, String.toList_append, hstart, List.append_assoc] at hparts
    exact absurd (List.append_cancel_left hparts) (by simp)

end CutsEscape

theorem shows_iff (arguments : String) : Shows (argumentsCell arguments) arguments ↔
    ∀ shown rest, ¬ CutsEscape arguments shown rest := by
  refine ⟨fun h _ _ hc => hc.not_shows h, fun h => (argumentsCell_cases h).imp_right ?_⟩
  rintro ⟨shown, rest, harguments, _, hcell⟩
  exact ⟨shown, rest, harguments, hcell⟩

theorem unescape_argumentsCell (h : ∀ shown rest, ¬ CutsEscape arguments shown rest) :
    unescape (argumentsCell arguments).toList = arguments.toList ∨
      ∃ shown rest, arguments.toList = shown ++ rest ∧ rest ≠ [] ∧
        unescape (argumentsCell arguments).toList = shown ++ ['.', '.', '.'] := by
  rcases argumentsCell_cases h with hcell | ⟨shown, rest, harguments, hne, hcell⟩
  · left
    rw [hcell, toList_escapeCell, unescape_escape]
  · refine Or.inr ⟨shown.toList, rest.toList, ?_, by simpa using hne, ?_⟩
    · rw [harguments, String.toList_append]
    · rw [hcell, String.toList_append, toList_escapeCell, unescape_escape_append _ (by decide)]
      rfl

/-! ## Rows -/

/-- What stands in a report for the arguments of a signature. -/
structure IsArgumentsCell (r : Report) (s : Signature) (cell : String) : Prop where
  printed : row s ∈ lines r
  row_eq : row s =
    "| `" ++ s.name ++ "` | `" ++ cell ++ "` | `" ++ escapeCell s.result ++ "` |"
  short : cell.length ≤ cellLimit
  shows_iff : Shows cell s.arguments ↔ ∀ shown rest, ¬ CutsEscape s.arguments shown rest
  /-- To take the escapes away gives the arguments, or the start of them but not the whole. -/
  undone : (∀ shown rest, ¬ CutsEscape s.arguments shown rest) →
    unescape cell.toList = s.arguments.toList ∨
      ∃ shown rest, s.arguments.toList = shown ++ rest ∧ rest ≠ [] ∧
        unescape cell.toList = shown ++ ['.', '.', '.']
  /-- Half an escape leaves a backslash where the arguments have a bar. -/
  halved : ∀ shown rest, CutsEscape s.arguments shown rest →
    cell.toList = shown.flatMap escapeChar ++ ['\\', '.', '.', '.']

/-- The arguments cell of a signature is never too long. It shows the arguments or the start of them
exactly when it is not cut within an escape. -/
theorem isArgumentsCell_argumentsCell {r : Report} {f : FileSummary} {s : Signature}
    (hf : f ∈ r.files) (hs : s ∈ f.signatures) :
    IsArgumentsCell r s (argumentsCell s.arguments) where
  printed := row_mem_lines hf hs
  row_eq := rfl
  short := length_argumentsCell_le s.arguments
  shows_iff := shows_iff s.arguments
  undone := unescape_argumentsCell
  halved _ _ h := h.toList_argumentsCell

/-- A signature whose arguments have a bar right where their cell is cut. -/
def unionSignature : Signature :=
  ⟨"each", "first: list, second: dict, callback: Callable | None = None", "list"⟩

def unionReport : Report :=
  ⟨"/", [⟨1, "a.py", .file⟩], [⟨"a.py", .python, [unionSignature]⟩], []⟩

theorem isArgumentsCell_union :
    (⟨"a.py", .python, [unionSignature]⟩ ∈ unionReport.files ∧
        unionSignature ∈ [unionSignature]) ∧
      IsArgumentsCell unionReport unionSignature (argumentsCell unionSignature.arguments) :=
  ⟨⟨List.mem_singleton_self _, List.mem_singleton_self _⟩,
    isArgumentsCell_argumentsCell (List.mem_singleton_self _) (List.mem_singleton_self _)⟩

/-- The cell of these arguments ends with half an escape. -/
theorem not_shows_union :
    row unionSignature =
        "| `each` | `first: list, second: dict, callback: Callable \\...` | `list` |" ∧
      ¬ Shows (argumentsCell unionSignature.arguments) unionSignature.arguments := by
  have hcut : CutsEscape unionSignature.arguments
      "first: list, second: dict, callback: Callable ".toList " None = None".toList :=
    ⟨by decide, by decide, by decide⟩
  exact ⟨by decide, hcut.not_shows⟩

end CodeOutline.Report.Markdown
