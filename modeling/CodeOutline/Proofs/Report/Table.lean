import CodeOutline.Proofs.Text.Lines
import CodeOutline.Report.Markdown

/-! # Rows of a table

A row of a Markdown table is read by its bars: those with no backslash right before them end a cell.
The arguments and the result of a signature are written so that no bar in them ends a cell. The name
is written as it stands, so a row is well formed exactly for the names without bars and line ends.
-/

namespace CodeOutline.Report.Markdown

/-- The cells of a row from a place on. `cell` is the cell being read, backwards, and `escaped` says
that a backslash stands right before the place. -/
def cellsFrom (escaped : Bool) (cell : List Char) : List Char → List (List Char)
  | [] => [cell.reverse]
  | x :: u =>
    if x = '|' ∧ escaped = false then cell.reverse :: cellsFrom false [] u
    else cellsFrom (x == '\\') (x :: cell) u

/-- The text split at the bars with no backslash right before them. -/
def splitCells (u : List Char) : List (List Char) :=
  cellsFrom false [] u

/-- Each bar with a backslash before it becomes a bar. -/
def unescape : List Char → List Char
  | '\\' :: '|' :: u => '|' :: unescape u
  | x :: u => x :: unescape u
  | [] => []

/-- A line of a text, without its line end. -/
structure IsLine (line text : List Char) : Prop where
  place : ∃ before after, text = before ++ (line ++ '\n' :: after) ∧
    (before = [] ∨ ∃ u, before = u ++ ['\n'])
  single : '\n' ∉ line

/-- A row with three cells between its outer bars, of which the first and the third give back the
name and the result of a signature. -/
structure IsRowOf (row : List Char) (s : Signature) : Prop where
  cells : ∃ name arguments result, splitCells row =
    [[], [' ', '`'] ++ name ++ ['`', ' '], arguments, [' ', '`'] ++ result ++ ['`', ' '], []] ∧
      unescape name = s.name.toList ∧ unescape result = s.result.toList

/-- A text has a signature as one line, a well-formed row. -/
def HasRow (text : String) (s : Signature) : Prop :=
  IsLine (row s).toList text.toList ∧ IsRowOf (row s).toList s

/-! ## Bars that end a cell -/

/-- A backslash is the last character read, if there was one. -/
def endsEscaped (escaped : Bool) : List Char → Bool
  | [] => escaped
  | x :: u => endsEscaped (x == '\\') u

/-- The number of bars that end a cell. -/
def freeBars (escaped : Bool) : List Char → Nat
  | [] => 0
  | x :: u => (if x = '|' ∧ escaped = false then 1 else 0) + freeBars (x == '\\') u

variable {escaped : Bool} {cell u v t : List Char} {x : Char} {s : Signature}

theorem freeBars_append :
    freeBars escaped (u ++ v) = freeBars escaped u + freeBars (endsEscaped escaped u) v := by
  induction u generalizing escaped with
  | nil => exact (Nat.zero_add _).symm
  | cons x u ih => rw [List.cons_append, freeBars, freeBars, endsEscaped, ih, Nat.add_assoc]

theorem endsEscaped_append :
    endsEscaped escaped (u ++ v) = endsEscaped (endsEscaped escaped u) v := by
  induction u generalizing escaped with
  | nil => rfl
  | cons x u ih => rw [List.cons_append, endsEscaped, endsEscaped, ih]

theorem freeBars_of_notMem (h : '|' ∉ u) : freeBars escaped u = 0 := by
  induction u generalizing escaped with
  | nil => rfl
  | cons x u ih =>
    obtain ⟨hx, hu⟩ := not_or.mp (mt List.mem_cons.mpr h)
    rw [freeBars, if_neg fun hb => hx hb.1.symm, ih hu]

theorem freeBars_take (h : freeBars escaped u = 0) (n : Nat) : freeBars escaped (u.take n) = 0 := by
  rw [← List.take_append_drop n u, freeBars_append] at h
  omega

theorem length_cellsFrom : (cellsFrom escaped cell u).length = freeBars escaped u + 1 := by
  induction u generalizing escaped cell with
  | nil => rfl
  | cons x u ih =>
    rw [cellsFrom, freeBars]
    split
    · rename_i hx
      obtain ⟨rfl, _⟩ := hx
      rw [List.length_cons, ih, Nat.add_comm 1]
      rfl
    · rw [ih, Nat.zero_add]

theorem cellsFrom_append (h : freeBars escaped u = 0) :
    cellsFrom escaped cell (u ++ v) = cellsFrom (endsEscaped escaped u) (u.reverse ++ cell) v := by
  induction u generalizing escaped cell with
  | nil => rfl
  | cons x u ih =>
    rw [freeBars] at h
    rw [List.cons_append, cellsFrom]
    split
    · rename_i hx
      rw [if_pos hx] at h
      omega
    · rename_i hx
      rw [if_neg hx, Nat.zero_add] at h
      rw [ih h, endsEscaped, List.reverse_cons, List.append_assoc, List.singleton_append]

theorem cellsFrom_cell (h : freeBars false u = 0) (he : endsEscaped false u = false) :
    cellsFrom false [] (u ++ '|' :: v) = u :: cellsFrom false [] v := by
  rw [cellsFrom_append h, he, cellsFrom, if_pos ⟨rfl, rfl⟩, List.append_nil, List.reverse_reverse]

/-! ## Escaped texts -/

theorem freeBars_escape : freeBars escaped (t.flatMap escapeChar) = 0 := by
  induction t generalizing escaped with
  | nil => rfl
  | cons x t ih =>
    rw [List.flatMap_cons, escapeChar]
    split
    · simp [freeBars, ih]
    · rename_i hx
      simp [freeBars, hx, ih]

theorem freeBars_cutCell (s : String) : freeBars escaped (cutCell (escapeCell s)).toList = 0 := by
  have he : freeBars escaped (escapeCell s).toList = 0 := by
    rw [escapeCell, String.toList_ofList, freeBars_escape]
  rw [cutCell]
  split
  · rw [String.toList_ofList, freeBars_append, freeBars_take he, Nat.zero_add]
    exact freeBars_of_notMem (by decide)
  · exact he

theorem unescape_cons (h : x = '\\' → u.head? ≠ some '|') :
    unescape (x :: u) = x :: unescape u := by
  rw [unescape]
  rintro v rfl rfl
  exact h rfl rfl

theorem head?_escape (t : List Char) : (t.flatMap escapeChar).head? ≠ some '|' := by
  cases t with
  | nil => simp
  | cons x t =>
    rw [List.flatMap_cons, escapeChar]
    split
    · simp
    · rename_i hx
      simpa using hx

theorem unescape_escape (t : List Char) : unescape (t.flatMap escapeChar) = t := by
  induction t with
  | nil => rfl
  | cons x t ih =>
    rw [List.flatMap_cons, escapeChar]
    split
    · rename_i hx
      rw [hx, List.cons_append, List.singleton_append, unescape, ih]
    · rw [List.singleton_append, unescape_cons fun _ => head?_escape t, ih]

theorem unescape_of_notMem (h : '|' ∉ u) : unescape u = u := by
  induction u with
  | nil => rfl
  | cons x u ih =>
    have hu : '|' ∉ u := List.not_mem_of_not_mem_cons h
    rw [unescape_cons fun _ hb => hu (List.mem_of_head? hb), ih hu]

theorem length_unescape_le (u : List Char) : (unescape u).length ≤ u.length := by
  fun_induction unescape u with
  | case1 u ih =>
    simp only [List.length_cons]
    omega
  | case2 x u _ ih =>
    simp only [List.length_cons]
    omega
  | case3 => exact Nat.le_refl _

/-- A text whose bars all have a backslash before them is changed by taking these away. -/
theorem notMem_of_unescape (h : freeBars escaped u = 0) (hu : unescape u = u)
    (he : escaped = true → u.head? ≠ some '|') : '|' ∉ u := by
  induction u generalizing escaped with
  | nil => exact List.not_mem_nil
  | cons x u ih =>
    have hx : x ≠ '|' := by
      rintro rfl
      cases escaped with
      | false => simp [freeBars] at h
      | true => exact he rfl rfl
    have hb : x = '\\' → u.head? ≠ some '|' := by
      rintro rfl hb
      obtain ⟨w, rfl⟩ : ∃ w, u = '|' :: w := by
        cases u with
        | nil => cases hb
        | cons y w =>
          cases hb
          exact ⟨w, rfl⟩
      -- Without its backslash the text would be shorter.
      have hl := congrArg List.length hu
      have := length_unescape_le w
      rw [unescape, List.length_cons, List.length_cons, List.length_cons] at hl
      omega
    rw [unescape_cons hb] at hu
    rw [freeBars, if_neg fun h => hx h.1, Nat.zero_add] at h
    refine List.not_mem_cons_of_ne_of_not_mem (Ne.symm hx) (ih h (List.cons.inj hu).2 fun hx => ?_)
    exact hb (beq_iff_eq.mp hx)

/-! ## Rows -/

/-- A cell with a text between backticks. -/
def cellOf (u : List Char) : List Char := [' ', '`'] ++ u ++ ['`', ' ']

theorem freeBars_cellOf (u : List Char) : freeBars escaped (cellOf u) = freeBars false u := by
  rw [cellOf, freeBars_append, freeBars_append, freeBars_of_notMem (u := ['`', ' ']) (by decide),
    freeBars_of_notMem (u := [' ', '`']) (by decide), Nat.zero_add, Nat.add_zero]
  rfl

theorem endsEscaped_cellOf (u : List Char) : endsEscaped false (cellOf u) = false := by
  rw [cellOf, endsEscaped_append]
  rfl

theorem toList_row (s : Signature) : (row s).toList =
    '|' :: (cellOf s.name.toList ++ '|' :: (cellOf (cutCell (escapeCell s.arguments)).toList ++
      '|' :: (cellOf (s.result.toList.flatMap escapeChar) ++ ['|']))) := by
  simp [row, cellOf, escapeCell]

/-- Bars that end a cell are the four of the row itself and those in the name. -/
theorem freeBars_row (s : Signature) :
    freeBars false (row s).toList = freeBars false s.name.toList + 4 := by
  have hbar (u : List Char) : freeBars false ('|' :: u) = freeBars false u + 1 :=
    Nat.add_comm 1 _
  simp only [toList_row, hbar, freeBars_append, freeBars_cellOf, endsEscaped_cellOf,
    freeBars_cutCell, freeBars_escape]
  rfl

theorem splitCells_row (h : freeBars false s.name.toList = 0) : splitCells (row s).toList =
    [[], cellOf s.name.toList, cellOf (cutCell (escapeCell s.arguments)).toList,
      cellOf (s.result.toList.flatMap escapeChar), []] := by
  have hname : freeBars false (cellOf s.name.toList) = 0 := by rw [freeBars_cellOf, h]
  have harguments : freeBars false (cellOf (cutCell (escapeCell s.arguments)).toList) = 0 := by
    rw [freeBars_cellOf, freeBars_cutCell]
  have hresult : freeBars false (cellOf (s.result.toList.flatMap escapeChar)) = 0 := by
    rw [freeBars_cellOf, freeBars_escape]
  rw [splitCells, toList_row, cellsFrom, if_pos ⟨rfl, rfl⟩,
    cellsFrom_cell hname (endsEscaped_cellOf _), cellsFrom_cell harguments (endsEscaped_cellOf _),
    cellsFrom_cell hresult (endsEscaped_cellOf _)]
  rfl

theorem isRowOf_iff (s : Signature) : IsRowOf (row s).toList s ↔ '|' ∉ s.name.toList := by
  constructor
  · rintro ⟨name, arguments, result, hcells, hname, _⟩
    have hlength := congrArg List.length hcells
    rw [splitCells, length_cellsFrom, freeBars_row] at hlength
    have hfree : freeBars false s.name.toList = 0 := by simpa using hlength
    rw [splitCells_row hfree] at hcells
    have hn : s.name.toList = name := by
      have := (List.cons.inj (List.cons.inj hcells).2).1
      simpa [cellOf] using this
    rw [← hn] at hname
    exact notMem_of_unescape hfree hname (fun h => by cases h)
  · intro h
    exact ⟨_, _, _, splitCells_row (freeBars_of_notMem h), unescape_of_notMem h, unescape_escape _⟩

/-! ## Lines -/

theorem lineFeed_notMem_escape (h : '\n' ∉ t) : '\n' ∉ t.flatMap escapeChar := by
  intro hm
  obtain ⟨x, hx, hm⟩ := List.mem_flatMap.mp hm
  rw [escapeChar] at hm
  split at hm
  · simp at hm
  · exact h (List.mem_singleton.mp hm ▸ hx)

theorem lineFeed_notMem_cutCell {s : String} (h : '\n' ∉ s.toList) :
    '\n' ∉ (cutCell (escapeCell s)).toList := by
  have he : '\n' ∉ (escapeCell s).toList := by
    rw [escapeCell, String.toList_ofList]
    exact lineFeed_notMem_escape h
  rw [cutCell]
  split
  · rw [String.toList_ofList, List.mem_append]
    exact not_or.mpr ⟨fun hm => he (List.mem_of_mem_take hm), by decide⟩
  · exact he

theorem lineFeed_notMem_row (ha : '\n' ∉ s.arguments.toList) (hr : '\n' ∉ s.result.toList) :
    '\n' ∉ (row s).toList ↔ '\n' ∉ s.name.toList := by
  rw [toList_row]
  simp [cellOf, lineFeed_notMem_cutCell ha, lineFeed_notMem_escape hr]

theorem unlines_ends (lines : List String) : (Text.unlines lines).toList = [] ∨
    ∃ u, (Text.unlines lines).toList = u ++ ['\n'] := by
  rcases List.eq_nil_or_concat lines with rfl | ⟨others, line, rfl⟩
  · exact Or.inl rfl
  · refine Or.inr ⟨(Text.unlines others).toList ++ line.toList, ?_⟩
    rw [List.concat_eq_append, Text.toList_unlines_append, Text.toList_unlines_cons,
      List.append_assoc]
    rfl

theorem isLine_unlines {line : String} {lines : List String} (h : line ∈ lines)
    (hn : '\n' ∉ line.toList) : IsLine line.toList (Text.unlines lines).toList := by
  obtain ⟨before, after, rfl⟩ := List.append_of_mem h
  refine ⟨⟨(Text.unlines before).toList, (Text.unlines after).toList, ?_,
    unlines_ends before⟩, hn⟩
  rw [Text.toList_unlines_append, Text.toList_unlines_cons]

theorem row_mem_lines {r : Report} {f : FileSummary} (hf : f ∈ r.files) (hs : s ∈ f.signatures) :
    row s ∈ lines r := by
  refine List.mem_append_right _ (List.mem_flatMap.mpr ⟨f, hf, ?_⟩)
  exact List.mem_append_left _ (List.mem_append_right _ (List.mem_map_of_mem hs))

/-- A signature whose arguments and result are one line each has its row in the report exactly when
its name has neither a bar nor a line end. -/
theorem hasRow_iff {r : Report} {f : FileSummary} (hf : f ∈ r.files) (hs : s ∈ f.signatures)
    (ha : '\n' ∉ s.arguments.toList) (hr : '\n' ∉ s.result.toList) :
    HasRow r.markdownText s ↔ '|' ∉ s.name.toList ∧ '\n' ∉ s.name.toList := by
  rw [HasRow, isRowOf_iff, and_comm, ← lineFeed_notMem_row ha hr]
  refine and_congr_right fun _ => ⟨IsLine.single, fun hn => ?_⟩
  exact isLine_unlines (row_mem_lines hf hs) hn

end CodeOutline.Report.Markdown
