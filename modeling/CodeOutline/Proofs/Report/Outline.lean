import Mathlib.Data.List.Basic
import CodeOutline.Proofs.Text.Lines
import CodeOutline.Proofs.Text.Raw
import CodeOutline.Report.Markdown

/-! # Reading a listing

A line of the listing starts with the spaces of its depth, and the mark after them says whether the
rest is the name of a file, or of a directory with a slash. No line of an entry is the fence that
ends the listing. So the text of a report gives back its root as it is shown, its tree and the number
of its files, if the root and the names are one line each.
-/

namespace CodeOutline.Report.Markdown

/-- What a reader of the text learns of a report before the tables. -/
structure Outline where
  root : String
  tree : List TreeEntry
  fileCount : Nat
  deriving DecidableEq

/-! ## Readers -/

/-- The entry that a line of the listing stands for. -/
def readTreeLine? (line : List Char) : Option TreeEntry :=
  let depth := (line.takeWhile (· == ' ')).length / 2
  match line.dropWhile (· == ' ') with
  | '📂' :: ' ' :: u =>
    if u.getLast? = some '/' then some ⟨depth, String.ofList u.dropLast, .directory⟩ else none
  | '📄' :: ' ' :: u => some ⟨depth, String.ofList u, .file⟩
  | _ => none

/-- The line that ends the listing. -/
def fence : List Char := ['`', '`', '`']

/-- What stands before the root. -/
def rootLabel : String := "Scanning directory: "

/-- What stands before the number of files. -/
def countLabel : String := "Total files with functions: "

/-- The entries up to the fence, and the lines after it. -/
def readTree? (lines : List (List Char)) : Option (List TreeEntry × List (List Char)) := do
  let tree ← (lines.takeWhile (· != fence)).mapM readTreeLine?
  return (tree, (lines.dropWhile (· != fence)).drop 1)

/-- The outline that the text of a report begins with. -/
def readOutline? (text : String) : Option Outline :=
  match text.toList.splitOn '\n' with
  | first :: _ :: _ :: _ :: listing => do
    let root ← first.dropPrefix? rootLabel.toList
    let (tree, after) ← readTree? listing
    let count ← (after.getD 2 []).dropPrefix? countLabel.toList
    return ⟨String.ofList root, tree, Nat.ofDigitChars 10 count 0⟩
  | _ => none

variable {e : TreeEntry} {u : List Char} {r r' : Report}

/-! ## Lines of entries -/

/-- The mark of a kind of entry. -/
def mark : EntryKind → Char
  | .directory => '📂'
  | .file => '📄'

/-- What follows the name. -/
def ending : EntryKind → List Char
  | .directory => ['/']
  | .file => []

theorem toList_treeLine (e : TreeEntry) : (treeLine e).toList =
    List.replicate (2 * e.depth) ' ' ++ mark e.kind :: ' ' :: (e.name.toList ++ ending e.kind) := by
  unfold treeLine
  cases e.kind <;> simp [mark, ending]

theorem mark_ne_space (k : EntryKind) : mark k ≠ ' ' := by
  cases k <;> decide

theorem takeWhile_treeLine (e : TreeEntry) :
    (treeLine e).toList.takeWhile (· == ' ') = List.replicate (2 * e.depth) ' ' := by
  rw [toList_treeLine, List.takeWhile_append_of_pos (by simp), List.takeWhile_cons_of_neg]
  · exact List.append_nil _
  · simpa using mark_ne_space e.kind

theorem dropWhile_treeLine (e : TreeEntry) : (treeLine e).toList.dropWhile (· == ' ') =
    mark e.kind :: ' ' :: (e.name.toList ++ ending e.kind) := by
  rw [toList_treeLine, List.dropWhile_append_of_pos (by simp), List.dropWhile_cons_of_neg]
  simpa using mark_ne_space e.kind

/-- The line of an entry is read back, whatever its name is. -/
theorem readTreeLine?_treeLine (e : TreeEntry) : readTreeLine? (treeLine e).toList = some e := by
  obtain ⟨depth, name, kind⟩ := e
  unfold readTreeLine?
  rw [takeWhile_treeLine, dropWhile_treeLine]
  cases kind <;> simp [mark, ending]

theorem treeLine_ne_fence (e : TreeEntry) : (treeLine e).toList ≠ fence := by
  intro h
  have hd := dropWhile_treeLine e
  rw [h] at hd
  have hf : fence.dropWhile (· == ' ') = fence := by decide
  rw [hf, fence, List.cons_eq_cons] at hd
  cases hk : e.kind <;> simp [hk, mark] at hd

theorem lineFeed_notMem_treeLine (h : '\n' ∉ e.name.toList) : '\n' ∉ (treeLine e).toList := by
  rw [toList_treeLine]
  cases e.kind <;> simp [mark, ending, h]

theorem readTree?_append (tree : List TreeEntry) (after : List (List Char)) :
    readTree? (tree.map (fun e => (treeLine e).toList) ++ fence :: after) = some (tree, after) := by
  have hp : ∀ line ∈ tree.map (fun e => (treeLine e).toList), (line != fence) = true := by
    simp [treeLine_ne_fence]
  have hm : (tree.map fun e => (treeLine e).toList).mapM readTreeLine? = some tree := by
    induction tree with
    | nil => rfl
    | cons e tree ih => simp_all [readTreeLine?_treeLine]
  rw [readTree?, List.takeWhile_append_of_pos hp, List.dropWhile_append_of_pos hp,
    List.takeWhile_cons_of_neg (by simp), List.dropWhile_cons_of_neg (by simp), List.append_nil, hm]
  rfl

/-! ## Outlines -/

/-- What the text of a report shows before the tables. -/
def outline (r : Report) : Outline :=
  ⟨r.root.shown, r.tree, r.files.length⟩

/-- The root of a report and the names in its tree are one line each. -/
structure OneLined (r : Report) : Prop where
  root : 10 ∉ r.root.bytes
  names : ∀ e ∈ r.tree, '\n' ∉ e.name.toList

/-- The lines before the tables. -/
def head (r : Report) : List String :=
  [rootLabel ++ r.root.shown, "", "# Project Structure", "```text"] ++ r.tree.map treeLine ++
    ["```", "", "# Code Analysis", countLabel ++ toString r.files.length]

theorem lineFeed_notMem_toDigits (n : Nat) : '\n' ∉ Nat.toDigits 10 n := by
  intro h
  exact absurd (Nat.isDigit_of_mem_toDigits (by decide) (by decide) h) (by decide)

theorem lineFeed_notMem_head (h : OneLined r) : ∀ line ∈ head r, '\n' ∉ line.toList := by
  have hn := lineFeed_notMem_toDigits r.files.length
  have ht : ∀ line ∈ r.tree.map treeLine, '\n' ∉ line.toList :=
    List.forall_mem_map.mpr fun e he => lineFeed_notMem_treeLine (h.names e he)
  simp only [head, List.forall_mem_append, List.forall_mem_cons]
  refine ⟨⟨⟨?root, by decide⟩, ht⟩, by decide, by decide, by decide, ?count, by decide⟩
  case root => simp [rootLabel, RawText.lineFeed_mem_shown, h.root]
  case count => simp [countLabel, hn]

theorem lines_eq_head_append (r : Report) : lines r = head r ++ r.files.flatMap fileLines := by
  simp [lines, head, rootLabel, countLabel]

theorem readOutline?_markdownText (h : OneLined r) :
    readOutline? r.markdownText = some (outline r) := by
  have hs := Text.splitOn_unlines_append (lineFeed_notMem_head h) (r.files.flatMap fileLines)
  rw [← lines_eq_head_append] at hs
  generalize (Text.unlines (r.files.flatMap fileLines)).toList.splitOn '\n' = tables at hs
  have hh : (head r).map String.toList ++ tables =
      (rootLabel.toList ++ r.root.shown.toList) :: [] :: "# Project Structure".toList ::
        "```text".toList :: (r.tree.map (fun e => (treeLine e).toList) ++ fence :: [] ::
          "# Code Analysis".toList :: (countLabel.toList ++ Nat.toDigits 10 r.files.length) ::
            tables) := by
    simp [head, fence, Function.comp_def]
  rw [readOutline?, markdownText, hs, hh]
  simp only [List.dropPrefix?_append_of_beq _ BEq.rfl, readTree?_append, Option.bind_eq_bind,
    Option.bind_some, List.getD_cons_succ, List.getD_cons_zero, Nat.ofDigitChars_ten_toDigits,
    String.ofList_toList]
  rfl

/-- Two reports with one text have one outline: names with spaces, slashes, marks or fences in them
are still told apart from the lines they stand in. -/
theorem outline_determined (h : OneLined r) :
    readOutline? r.markdownText = some (outline r) ∧
      ∀ r', OneLined r' → r.markdownText = r'.markdownText →
        r.root.shown = r'.root.shown ∧ (r.root.IsText → r'.root.IsText → r.root = r'.root) ∧
          r.tree = r'.tree ∧ r.files.length = r'.files.length := by
  constructor
  · exact readOutline?_markdownText h
  · intro r' h' ht
    have ho : some (outline r) = some (outline r') := by
      rw [← readOutline?_markdownText h, ← readOutline?_markdownText h', ht]
    obtain ⟨hroot, htree, hfiles⟩ := Outline.mk.inj (Option.some.inj ho)
    refine ⟨hroot, fun hr hr' => ?_, htree, hfiles⟩
    rw [← hr.ofText_shown, ← hr'.ofText_shown, hroot]

/-- A report whose names look like other lines of the text. -/
def namesLikeLines (l : Language) (skipped : List SkippedFile) : Report :=
  ⟨" `a` ", [⟨1, "  lib/", .directory⟩, ⟨2, "```", .file⟩, ⟨0, "```", .file⟩, ⟨1, "📂 src/", .file⟩],
    [⟨"lib/a.rs", l, [⟨"f", "", ""⟩]⟩], skipped⟩

/-- The language of a file and the skipped files are not in the text. -/
theorem outline_determined_namesLikeLines :
    (OneLined (namesLikeLines .rust []) ∧
      OneLined (namesLikeLines .go [⟨"b.rs", .tooLarge 5 4⟩]) ∧
      (namesLikeLines .rust []).markdownText =
        (namesLikeLines .go [⟨"b.rs", .tooLarge 5 4⟩]).markdownText) ∧
      readOutline? (namesLikeLines .rust []).markdownText =
        some (outline (namesLikeLines .rust [])) ∧
      (namesLikeLines .rust []).root = (namesLikeLines .go [⟨"b.rs", .tooLarge 5 4⟩]).root ∧
      (namesLikeLines .rust []).tree = (namesLikeLines .go [⟨"b.rs", .tooLarge 5 4⟩]).tree ∧
      (namesLikeLines .rust []).files.length =
        (namesLikeLines .go [⟨"b.rs", .tooLarge 5 4⟩]).files.length := by
  have hroot : 10 ∉ (RawText.ofText " `a` ").bytes := by decide +kernel
  have h : ∀ l skipped, OneLined (namesLikeLines l skipped) :=
    fun _ _ => ⟨hroot, by simp [namesLikeLines]⟩
  obtain ⟨hread, hd⟩ := outline_determined (h .rust [])
  obtain ⟨_, hr, he⟩ := hd (namesLikeLines .go [⟨"b.rs", .tooLarge 5 4⟩]) (h .go _) rfl
  exact ⟨⟨h _ _, h _ _, rfl⟩, hread, hr ⟨_, rfl⟩ ⟨_, rfl⟩, he⟩

/-- A report on nothing. -/
def bareReport (root : RawText) : Report := ⟨root, [], [], []⟩

/-- Of a root that is no text the wrong places are not told apart, and not from the replacement
character either. -/
theorem markdownText_wrongBytes :
    (OneLined (bareReport ⟨[0x2F, 0xFF]⟩) ∧ OneLined (bareReport "/\uFFFD")) ∧
      (bareReport ⟨[0x2F, 0xFF]⟩).markdownText = (bareReport "/\uFFFD").markdownText ∧
        (bareReport ⟨[0x2F, 0xFF]⟩).root ≠ (bareReport "/\uFFFD").root := by
  have hroot : (⟨[0x2F, 0xFF]⟩ : RawText).shown = ("/\uFFFD" : RawText).shown := by decide +kernel
  refine ⟨⟨⟨by decide +kernel, nofun⟩, ⟨by decide +kernel, nofun⟩⟩, ?_, by decide +kernel⟩
  rw [markdownText, markdownText, lines, lines, bareReport, bareReport, hroot]

end CodeOutline.Report.Markdown
