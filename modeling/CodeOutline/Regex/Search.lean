import CodeOutline.Regex.Survey

/-! # Searching

The matches of an expression in a text, from left to right and apart from each other. An empty
match right at the end of the match before it is none.
-/

namespace CodeOutline.Regex

/-- A match: where it starts, where it ends, and its captures. -/
structure Match where
  start : Cursor
  stop : Nat
  captures : Captures
  deriving Repr

/-- The text captured last under a name. -/
def Match.group? (m : Match) (name : String) : Option (List Char) :=
  (m.captures.find? name).map (·.text)

/-- A search under way. -/
structure Search where
  /-- No match starts before this offset. -/
  resume : Nat
  /-- The end of the match found last. -/
  last : Option Nat
  /-- The matches found, the last one first. -/
  found : List Match

/-- Looks for a match that starts at a place, when `attempt` gives the match from a place. -/
def Search.visit (attempt : Cursor → Option (Cursor × Captures)) (s : Search) (c : Cursor) :
    Search :=
  if c.offset < s.resume then s
  else
    match attempt c with
    | none => s
    | some (d, ks) =>
      if d.offset = c.offset && s.last == some c.offset then s
      else ⟨d.offset, some d.offset, ⟨c, d.offset, ks⟩ :: s.found⟩

/-- The matches in a text, when `attempt` gives the match from a place. -/
def matchesBy (attempt : Cursor → Option (Cursor × Captures)) (text : List Char) : List Match :=
  ((Cursor.places text).foldl (Search.visit attempt) ⟨0, none, []⟩).found.reverse

/-- The matches of an expression in a text. -/
def allMatches (r : Regex) (text : List Char) : List Match :=
  let s := r.survey text
  matchesBy (s.attempt r) text

/-- The expression matches a text from its start to its end. -/
def matchesWhole (r : Regex) (text : List Char) : Bool :=
  let r := r.seq (.look .textEnd)
  ((r.survey text).attempt r (.start text)).isSome

end CodeOutline.Regex
