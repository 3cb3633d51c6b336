import CodeOutline.Report.Basic
import CodeOutline.Text.Lines

/-! # Reports as lines

One line for each signature, with the path of its file as it is shown.
-/

namespace CodeOutline.Report

/-- The line of a signature: the result follows only when there is one. -/
def compactLine (path : String) (s : Signature) : String :=
  let declaration := path ++ ": " ++ s.name ++ "(" ++ s.arguments ++ ")"
  if s.result.isEmpty then declaration else declaration ++ " -> " ++ s.result

/-- The lines of all files, in order. -/
def compactLines (r : Report) : List String :=
  r.files.flatMap fun f => f.signatures.map (compactLine f.path.shown)

/-- The report as one line for each signature. -/
def compactText (r : Report) : String :=
  Text.unlines (compactLines r)

end CodeOutline.Report
