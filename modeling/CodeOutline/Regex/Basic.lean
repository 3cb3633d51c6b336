import CodeOutline.Regex.CharSet

/-! # Regular expressions

The expressions that texts are matched against. `Regex.outcomes` says what they mean: the ways in
which an expression can match from a place of a text, in order of preference. Of all ways to match
a whole expression the first counts.

A loop takes part in this order as follows. Its first round may match the empty text and then ends
the loop. A later round that matches the empty text is no way to match.
-/

namespace CodeOutline

/-- A place in a text: the number of characters before it, the last of them, and the characters
after it. -/
structure Cursor where
  offset : Nat
  before : Option Char
  rest : List Char
  deriving DecidableEq, Repr

namespace Cursor

/-- The start of a text. -/
def start (text : List Char) : Cursor := ⟨0, none, text⟩

/-- The place after the next character; at the end of the text, the same place. -/
def next (c : Cursor) : Cursor :=
  match c.rest with
  | [] => c
  | x :: rest => ⟨c.offset + 1, some x, rest⟩

/-- The places of a text from a place on, whose remaining characters are given; `done` are the
places before, backwards. -/
def placesFrom (done : List Cursor) (c : Cursor) : List Char → List Cursor
  | [] => (c :: done).reverse
  | _ :: cs => placesFrom (c :: done) c.next cs

/-- The places of a text in order, its end included. -/
def places (text : List Char) : List Cursor :=
  placesFrom [] (start text) text

/-- The text from one place to a later offset. -/
def textTo (c : Cursor) (stop : Nat) : List Char :=
  c.rest.take (stop - c.offset)

end Cursor

/-- Conditions on a place that take no character. -/
inductive Look
  | textStart
  | textEnd
  | lineStart
  | lineEnd
  /-- Starts of lines, where a carriage return with a line feed after it ends one line. -/
  | lineStartCrlf
  | lineEndCrlf
  /-- Between a character of a word and one that is none, or an end of the text. -/
  | wordEdge (unicode : Bool)
  | notWordEdge (unicode : Bool)
  | wordStart (unicode : Bool)
  | wordEnd (unicode : Bool)
  /-- No character of a word before the place. -/
  | wordStartHalf (unicode : Bool)
  /-- No character of a word after the place. -/
  | wordEndHalf (unicode : Bool)
  deriving DecidableEq, Repr

namespace Look

/-- A character of a word, in Unicode or in ASCII; the end of a text is none. -/
def isWord (unicode : Bool) : Option Char → Bool
  | none => false
  | some c => if unicode then Unicode.isWordChar c else c.isAlphanum || c == '_'

/-- The condition holds between two characters; none stands for an end of the text. -/
def holds (look : Look) (before after : Option Char) : Bool :=
  match look with
  | textStart => before.isNone
  | textEnd => after.isNone
  | lineStart => before.isNone || before == some '\n'
  | lineEnd => after.isNone || after == some '\n'
  | lineStartCrlf =>
    before.isNone || before == some '\n' || (before == some '\r' && after != some '\n')
  | lineEndCrlf =>
    after.isNone || after == some '\r' || (after == some '\n' && before != some '\r')
  | wordEdge u => isWord u before != isWord u after
  | notWordEdge u => isWord u before == isWord u after
  | wordStart u => !isWord u before && isWord u after
  | wordEnd u => isWord u before && !isWord u after
  | wordStartHalf u => !isWord u before
  | wordEndHalf u => !isWord u after

end Look

inductive Regex
  /-- The empty text. -/
  | empty
  /-- One character of a set. -/
  | set (chars : Regex.CharSet)
  /-- A condition on the place. -/
  | look (l : Look)
  /-- What the body matches is captured under a name. -/
  | group (name : String) (body : Regex)
  /-- One after the other. -/
  | seq (first second : Regex)
  /-- The first, or else the second. -/
  | alt (first second : Regex)
  /-- One round of the body or more, as many as possible if greedy and else as few. -/
  | plus (greedy : Bool) (body : Regex)
  deriving DecidableEq, Repr, Inhabited

namespace Regex

/-- A captured text: where it starts and the offset of its end. -/
structure Capture where
  name : String
  start : Cursor
  stop : Nat
  deriving DecidableEq, Repr

namespace Capture

def text (k : Capture) : List Char :=
  k.start.textTo k.stop

end Capture

/-- The captures on the way to a place, the latest first. -/
abbrev Captures := List Capture

/-- What a name has captured last. -/
def Captures.find? (ks : Captures) (name : String) : Option Capture :=
  List.find? (·.name == name) ks

/-- The places that further rounds of a loop lead to, in order of preference. Each round takes a
character or more, so there are at most as many as the text has characters left. -/
def furtherRounds (greedy : Bool) (body : Cursor → Captures → List (Cursor × Captures)) :
    Nat → Cursor → Captures → List (Cursor × Captures)
  | 0, c, ks => [(c, ks)]
  | fuel + 1, c, ks =>
    let again := (body c ks).flatMap fun (d, ks) =>
      if d.offset = c.offset then [] else furtherRounds greedy body fuel d ks
    if greedy then again ++ [(c, ks)] else (c, ks) :: again

/-- The places that a match from a place can lead to, with the captures on the way, in order of
preference. -/
def outcomes : Regex → Cursor → Captures → List (Cursor × Captures)
  | .empty, c, ks => [(c, ks)]
  | .set chars, c, ks =>
    match c.rest with
    | [] => []
    | x :: _ => if chars.contains x then [(c.next, ks)] else []
  | .look l, c, ks => if l.holds c.before c.rest.head? then [(c, ks)] else []
  | .group name body, c, ks =>
    (body.outcomes c ks).map fun (d, ks) => (d, ⟨name, c, d.offset⟩ :: ks)
  | .seq first second, c, ks =>
    (first.outcomes c ks).flatMap fun (d, ks) => second.outcomes d ks
  | .alt first second, c, ks => first.outcomes c ks ++ second.outcomes c ks
  | .plus greedy body, c, ks =>
    (body.outcomes c ks).flatMap fun (d, ks) =>
      if d.offset = c.offset then [(d, ks)]
      else furtherRounds greedy body.outcomes d.rest.length d ks

/-! ## Common forms -/

/-- The body, or the empty text if it cannot match. -/
def opt (body : Regex) : Regex := .alt body .empty

/-- The empty text, or the body if that does not lead to a match. -/
def lazyOpt (body : Regex) : Regex := .alt .empty body

/-- Any number of rounds, as many as possible. -/
def star (body : Regex) : Regex := opt (.plus true body)

/-- Any number of rounds, as few as possible. -/
def lazyStar (body : Regex) : Regex := lazyOpt (.plus false body)

/-- One expression after the other. -/
def concat : List Regex → Regex
  | [] => .empty
  | [r] => r
  | r :: rs => .seq r (concat rs)

/-- The first expression that leads to a match. -/
def choice : List Regex → Regex
  | [] => .set .empty
  | [r] => r
  | r :: rs => .alt r (choice rs)

/-- One given character. -/
def char (c : Char) : Regex := .set (.singleton c)

/-- The names of the groups, in order of their opening. -/
def groupNames : Regex → List String
  | .empty => []
  | .set _ => []
  | .look _ => []
  | .group name body => name :: body.groupNames
  | .seq first second => first.groupNames ++ second.groupNames
  | .alt first second => first.groupNames ++ second.groupNames
  | .plus _ body => body.groupNames

end Regex

end CodeOutline
