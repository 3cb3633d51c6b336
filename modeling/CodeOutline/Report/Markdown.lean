import CodeOutline.Report.Basic
import CodeOutline.Text.Lines

/-! # Reports as Markdown

The listing of the tree as a fenced block, then a table of signatures for each file.
-/

namespace CodeOutline.Report.Markdown

/-- An arguments cell longer than this many characters is cut. -/
def cellLimit : Nat := 50

/-- The characters of a cut cell that are kept before its three dots. -/
def cutLength : Nat := 47

/-- A bar would end the cell, so it is written with a backslash before it. -/
def escapeChar (c : Char) : List Char :=
  if c = '|' then ['\\', '|'] else [c]

def escapeCell (s : String) : String :=
  String.ofList (s.toList.flatMap escapeChar)

/-- Cuts a cell that is too long and marks the cut by three dots. -/
def cutCell (s : String) : String :=
  let cs := s.toList
  if cs.length > cellLimit then String.ofList (cs.take cutLength ++ ['.', '.', '.']) else s

/-- A line of the listing, without its line end. -/
def treeLine (e : TreeEntry) : String :=
  let indent := String.ofList (List.replicate (2 * e.depth) ' ')
  match e.kind with
  | .directory => indent ++ "📂 " ++ e.name ++ "/"
  | .file => indent ++ "📄 " ++ e.name

/-- The row of a signature, without its line end. -/
def row (s : Signature) : String :=
  "| `" ++ s.name ++ "` | `" ++ cutCell (escapeCell s.arguments) ++ "` | `" ++
    escapeCell s.result ++ "` |"

/-- The lines of a file's table. Two empty lines end it. -/
def fileLines (f : FileSummary) : List String :=
  ["## File: `" ++ f.path.shown ++ "`", "| Function | Inputs | Outputs |", "| :--- | :--- | :--- |"] ++
    f.signatures.map row ++ ["", ""]

/-- Every line of the report. -/
def lines (r : Report) : List String :=
  ["Scanning directory: " ++ r.root.shown, "", "# Project Structure", "```text"] ++
    r.tree.map treeLine ++
    ["```", "", "# Code Analysis", "Total files with functions: " ++ toString r.files.length] ++
    r.files.flatMap fileLines

end CodeOutline.Report.Markdown

namespace CodeOutline.Report

/-- The report as a Markdown text. -/
def markdownText (r : Report) : String :=
  Text.unlines (Markdown.lines r)

end CodeOutline.Report
