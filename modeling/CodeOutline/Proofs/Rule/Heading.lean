import CodeOutline.Proofs.Regex.Captures
import CodeOutline.Proofs.Rule.Lexical

/-! # Headings

Where a type comes first, a declaration starts with the type, blanks, the name, maybe blanks, and the
parenthesis of the arguments. The matches of the rules of such languages stand at headings like
that, with the name and the arguments captured.
-/

namespace CodeOutline

open Text (Piece Blank)

/-- A declaration where the type comes first, up to the parenthesis of the arguments, between what
comes before it and after it. -/
structure Heading where
  before : List Char
  type : List Char
  /-- The blanks between the type and the name. -/
  gap : List Char
  name : List Char
  /-- The blanks between the name and the parenthesis. -/
  space : List Char
  after : List Char

namespace Heading

/-- The source text of the heading. -/
def text (h : Heading) : List Char :=
  h.before ++ (h.type ++ (h.gap ++ (h.name ++ (h.space ++ '(' :: h.after))))

/-- The type as a piece of the source text. -/
def typePiece (h : Heading) : Piece :=
  ⟨h.before, h.type, h.gap ++ (h.name ++ (h.space ++ '(' :: h.after))⟩

/-- The name as a piece of the source text. -/
def namePiece (h : Heading) : Piece :=
  ⟨h.before ++ (h.type ++ h.gap), h.name, h.space ++ '(' :: h.after⟩

def start (h : Heading) : Nat := h.before.length

/-- The offset after the parenthesis. -/
def stop (h : Heading) : Nat := h.namePiece.stop + h.space.length + 1

/-- The text between the parentheses. -/
def arguments (h : Heading) : List Char := h.after.takeWhile (· != ')')

/-- The arguments as a piece of the source text. -/
def argumentsPiece (h : Heading) : Piece :=
  ⟨h.before ++ (h.type ++ (h.gap ++ (h.name ++ (h.space ++ ['('])))), h.arguments,
    h.after.dropWhile (· != ')')⟩

/-- A word that is no control keyword. -/
def Free (word : List Char) : Prop := String.ofList word ∉ Extraction.controlKeywords

instance : DecidablePred Free := fun _ => inferInstanceAs (Decidable (_ ∉ _))

/-- Type and name are apart by blanks, and between the name and the parenthesis are only blanks. -/
structure Spaced (h : Heading) : Prop where
  gap_ne : h.gap ≠ []
  gap : Blank h.gap
  space : Blank h.space

/-- The type is a maximal run of characters. -/
structure Whole (run : Char → Bool) (h : Heading) : Prop where
  type_ne : h.type ≠ []
  type : ∀ x ∈ h.type, run x = true
  before : ∀ x ∈ h.before.getLast?, run x = false
  after : ∀ x ∈ (h.gap ++ (h.name ++ (h.space ++ '(' :: h.after))).head?, run x = false

variable {h : Heading} {run : Char → Bool} {x : Char}

theorem whole_typePiece (h : Heading) : h.typePiece.whole = h.text := rfl

theorem whole_namePiece (h : Heading) : h.namePiece.whole = h.text := by
  simp [namePiece, Piece.whole, Heading.text]

theorem whole_argumentsPiece (h : Heading) : h.argumentsPiece.whole = h.text := by
  simp [argumentsPiece, arguments, Piece.whole, Heading.text]

/-- Where blanks end a run, the blanks after the type do. -/
theorem Spaced.whole (hs : h.Spaced) (hrun : ∀ x, Text.isBlank x = true → run x = false)
    (hne : h.type ≠ []) (ht : ∀ x ∈ h.type, run x = true)
    (hb : ∀ x ∈ h.before.getLast?, run x = false) : h.Whole run := by
  refine ⟨hne, ht, hb, ?_⟩
  obtain ⟨y, gap, hgap⟩ := List.exists_cons_of_ne_nil hs.gap_ne
  intro x hx
  rw [hgap, List.cons_append, List.head?_cons, Option.mem_some_iff] at hx
  exact hrun x (hs.gap x (by simp [hgap, hx]))

end Heading

namespace Rule.Builtin

open Regex

/-- A match stands at a heading: its name and its arguments are those pieces of the text. -/
structure StandsAt (t : List Char) (name : Regex) (m : Match) (h : Heading) : Prop where
  text : h.text = t
  spaced : h.Spaced
  spells : Spells name h.name
  name : m.piece t "name" = h.namePiece
  arguments : m.piece t "args" = h.argumentsPiece
  stop : h.stop ≤ m.stop

/-- What comes after the type of a declaration. -/
def headed (name : Regex) (tail : List Regex) : List Regex :=
  someBlanks :: .group "name" name :: blanks :: openParenthesis :: .group "args" untilParenthesis ::
    closeParenthesis :: tail

variable {name : Regex} {tail : List Regex} {c d : Cursor} {ks : Captures} {m : Match}
  {text before type u v u' v' : List Char} {group : String} {p : Piece} {run : Char → Bool}

/-! ## Runs that end at one place -/

theorem eq_nil_of_run (hu : ∀ x ∈ (u ++ v).getLast?, run x = false) (hv : ∀ x ∈ v, run x = true) :
    v = [] := by
  rcases List.eq_nil_or_concat v with rfl | ⟨w, x, rfl⟩
  · rfl
  · have hx := hu x (by simp)
    rw [hv x (by simp)] at hx
    cases hx

theorem eq_of_run (h : u ++ v = u' ++ v') (hu : ∀ x ∈ u.getLast?, run x = false)
    (hv : ∀ x ∈ v, run x = true) (hu' : ∀ x ∈ u'.getLast?, run x = false)
    (hv' : ∀ x ∈ v', run x = true) : u = u' ∧ v = v' := by
  rcases List.append_eq_append_iff.mp h with ⟨w, rfl, rfl⟩ | ⟨w, rfl, rfl⟩
  · obtain rfl := eq_nil_of_run hu' fun x hx => hv x (List.mem_append_left v' hx)
    simp
  · obtain rfl := eq_nil_of_run hu fun x hx => hv' x (List.mem_append_left v hx)
    simp

/-! ## Matches -/

theorem groupText_of_piece (h : m.piece text group = p) :
    Extraction.groupText m group = String.ofList p.text := by
  rw [← h, Match.text_piece, Extraction.groupText]

theorem piece_eq {κ : Capture} (hf : m.captures.find? group = some κ) (hw : p.whole = text)
    (hs : κ.start.offset = p.start) (ht : κ.text = p.text) (he : κ.stop = p.stop) :
    m.piece text group = p := by
  obtain ⟨u, v, w⟩ := p
  obtain rfl : u ++ (v ++ w) = text := hw
  have hdrop : (u ++ (v ++ w)).drop κ.stop = w := by
    rw [he, Piece.stop, ← List.append_assoc, ← List.length_append, List.drop_left]
  rw [Match.piece, hf]
  dsimp only
  rw [Capture.piece, hs, hdrop, ht, Piece.start, List.take_left]

theorem takeWhile_until {args : List Char} (h : ')' ∉ args) (v : List Char) :
    (args ++ ')' :: v).takeWhile (· != ')') = args := by
  have ha : ∀ x ∈ args, (x != ')') = true := by
    intro x hx
    rw [bne_iff_ne]
    rintro rfl
    exact h hx
  rw [List.takeWhile_append_of_pos ha, List.takeWhile_cons_of_neg (by decide), List.append_nil]

/-- What a match reads after the type is the rest of a heading. -/
theorem exists_standsAt (name : Regex) (hn : name.groups = []) (ht : (concat tail).groups = [])
    (htext : text = before ++ (type ++ c.rest)) (hc : c.offset = before.length + type.length)
    (hstop : m.stop = d.offset) (h : (d, m.captures) ∈ (concat (headed name tail)).outcomes c ks) :
    ∃ g : Heading, g.before = before ∧ g.type = type ∧ StandsAt text name m g ∧
      m.captures.find? "ret" = ks.find? "ret" := by
  obtain ⟨gap, d₁, hgap, hsgap, h⟩ := exists_of_mem_outcomes_cons rfl h
  obtain ⟨nm, d₂, hname, hsname, h⟩ := exists_of_mem_outcomes_group_cons hn h
  obtain ⟨space, d₃, hspace, hsspace, h⟩ := exists_of_mem_outcomes_cons rfl h
  obtain ⟨u, d₄, hopen, hsopen, h⟩ := exists_of_mem_outcomes_cons rfl h
  obtain ⟨args, d₅, hargs, hsargs, h⟩ := exists_of_mem_outcomes_group_cons rfl h
  obtain ⟨v, d₆, hclose, hsclose, h⟩ := exists_of_mem_outcomes_cons rfl h
  obtain rfl := spells_char.mp hsopen
  obtain rfl := spells_char.mp hsclose
  obtain ⟨hgne, hgb⟩ := spells_someBlanks hsgap
  have hks : m.captures = ⟨"args", d₄, d₅.offset⟩ :: ⟨"name", d₁, d₂.offset⟩ :: ks :=
    captures_eq_of_noGroups ht h
  have hle : d₆.offset ≤ d.offset := Cursor.offset_le_of_mem_onward (outcomes_forward _ _ _ _ h)
  have h₁ := hgap.offset_eq
  have h₂ := hname.offset_eq
  have h₃ := hspace.offset_eq
  have h₄ := hopen.offset_eq
  have h₅ := hargs.offset_eq
  have h₆ := hclose.offset_eq
  simp only [List.length_singleton] at h₄ h₆
  have hrest : c.rest = gap ++ (nm ++ (space ++ '(' :: (args ++ ')' :: d₆.rest))) := by
    rw [hgap.rest, hname.rest, hspace.rest, hopen.rest, hargs.rest, hclose.rest]
    rfl
  have hbetween : (args ++ ')' :: d₆.rest).takeWhile (· != ')') = args :=
    takeWhile_until (spells_untilParenthesis hsargs) d₆.rest
  have hcn : m.captures.find? "name" = some ⟨"name", d₁, d₂.offset⟩ := by
    simp [hks, Captures.find?]
  have hca : m.captures.find? "args" = some ⟨"args", d₄, d₅.offset⟩ := by
    simp [hks, Captures.find?]
  let g : Heading := ⟨before, type, gap, nm, space, args ++ ')' :: d₆.rest⟩
  have hg : g.text = text := by
    rw [htext, hrest]
    rfl
  refine ⟨g, rfl, rfl, ⟨hg, ⟨hgne, hgb, spells_blanks hsspace⟩, hsname, ?_, ?_, ?_⟩, ?_⟩
  · apply piece_eq hcn (g.whole_namePiece.trans hg) _ (hname.text_eq _)
    · simp [g, Heading.namePiece, Piece.stop, h₂, h₁, hc, Nat.add_assoc]
    · simp [g, Heading.namePiece, Piece.start, h₁, hc, Nat.add_assoc]
  · apply piece_eq hca (g.whole_argumentsPiece.trans hg) _
      ((hargs.text_eq _).trans hbetween.symm)
    · simp [g, Heading.argumentsPiece, Heading.arguments, hbetween, Piece.stop]
      omega
    · simp [g, Heading.argumentsPiece, Piece.start]
      omega
  · simp only [g, Heading.stop, Heading.namePiece, Piece.stop, List.length_append]
    omega
  · simp [hks, Captures.find?]

end Rule.Builtin

end CodeOutline
