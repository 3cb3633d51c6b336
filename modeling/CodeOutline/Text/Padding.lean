/-! # Columns

Texts cut to a number of characters and filled up with spaces to a width.
-/

namespace CodeOutline.Text

/-- On which side of a column a text stands. -/
inductive Alignment
  | left | right | center
  deriving DecidableEq, Repr

/-- At most `limit` characters of the text, with spaces added until it has `width` characters. In
the centre, an odd space goes to the right. -/
def pad (width : Nat) (side : Alignment) (limit : Option Nat) (s : String) : String :=
  let cs := match limit with
    | some n => s.toList.take n
    | none => s.toList
  let gap := width - cs.length
  let before := match side with
    | .left => 0
    | .right => gap
    | .center => gap / 2
  String.ofList (List.replicate before ' ' ++ cs ++ List.replicate (gap - before) ' ')

end CodeOutline.Text
