/-! # Lines

Texts made of lines.
-/

namespace CodeOutline.Text

/-- Every line with a line end after it. -/
def unlines (ls : List String) : String :=
  String.join (ls.map (· ++ "\n"))

/-- A text many times over. -/
def repeated (n : Nat) (s : String) : String :=
  String.join (List.replicate n s)

end CodeOutline.Text
