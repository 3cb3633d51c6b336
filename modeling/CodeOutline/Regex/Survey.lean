import CodeOutline.Regex.Basic

/-! # Surveys

A survey of a text tells, for the parts of an expression and the places of the text, whether a
part can take the next character and the expression still come to a match. It is made in one pass
from the end of the text to its start. With it a match is read off without a wrong turn: wherever
there is a choice, the first way that the survey allows is the preferred one.
-/

namespace CodeOutline.Regex

/-- The expression can match the empty text at a place. -/
def nullable : Regex → Cursor → Bool
  | .empty, _ => true
  | .set _, _ => false
  | .look l, c => l.holds c.before c.rest.head?
  | .group _ body, c => body.nullable c
  | .seq first second, c => first.nullable c && second.nullable c
  | .alt first second, c => first.nullable c || second.nullable c
  | .plus _ body, c => body.nullable c

/-- Marks for the places of a text, written from its end to its start. -/
structure Column where
  marks : ByteArray

namespace Column

def empty : Column := ⟨ByteArray.empty⟩

def push (col : Column) (mark : Bool) : Column :=
  ⟨col.marks.push (if mark then 1 else 0)⟩

/-- The mark of the place with an offset, in a text of `size` characters. -/
def get (col : Column) (size offset : Nat) : Bool :=
  if h : size - offset < col.marks.size then col.marks[size - offset] != 0 else false

end Column

/-- The survey of an expression, part by part. A column holds the marks of the part of an
expression that a choice looks at: the second part of a sequence, the first of an alternative, the
body of a loop. A character is marked when the place after the one surveyed last leads to a match. -/
inductive Chart
  | leaf
  | char (leads : Bool)
  | group (body : Chart)
  | seq (marks : Column) (first second : Chart)
  | alt (marks : Column) (first second : Chart)
  | plus (marks : Column) (body : Chart)

/-- The chart of a text of which no place is surveyed. -/
def blankChart : Regex → Chart
  | .empty => .leaf
  | .set _ => .char false
  | .look _ => .leaf
  | .group _ body => .group body.blankChart
  | .seq first second => .seq .empty first.blankChart second.blankChart
  | .alt first second => .alt .empty first.blankChart second.blankChart
  | .plus _ body => .plus .empty body.blankChart

/-- The expression can take the next character and come to a match, by a chart of the places after
this one. -/
def gains : Regex → Chart → Cursor → Bool
  | .set chars, .char leads, c =>
    leads && match c.rest with
      | [] => false
      | x :: _ => chars.contains x
  | .group _ body, .group chart, c => body.gains chart c
  | .seq first second, .seq _ chart₁ chart₂, c =>
    first.gains chart₁ c || (first.nullable c && second.gains chart₂ c)
  | .alt first second, .alt _ chart₁ chart₂, c => first.gains chart₁ c || second.gains chart₂ c
  | .plus _ body, .plus _ chart, c => body.gains chart c
  | _, _, _ => false

/-- Surveys one place more, the one before those of the chart. `leads` says whether the place after
the whole expression leads to a match, if the expression ends here. Returned with the chart is
`gains` of the expression. -/
def surveyPlace : Regex → Chart → Bool → Cursor → Chart × Bool
  | .set chars, .char before, leads, c =>
    (.char leads, before && match c.rest with
      | [] => false
      | x :: _ => chars.contains x)
  | .group _ body, .group chart, leads, c =>
    let (chart, gain) := body.surveyPlace chart leads c
    (.group chart, gain)
  | .seq first second, .seq marks chart₁ chart₂, leads, c =>
    let (chart₂, gain₂) := second.surveyPlace chart₂ leads c
    let (chart₁, gain₁) := first.surveyPlace chart₁ (gain₂ || (second.nullable c && leads)) c
    (.seq (marks.push gain₂) chart₁ chart₂, gain₁ || (first.nullable c && gain₂))
  | .alt first second, .alt marks chart₁ chart₂, leads, c =>
    let (chart₁, gain₁) := first.surveyPlace chart₁ leads c
    let (chart₂, gain₂) := second.surveyPlace chart₂ leads c
    (.alt (marks.push gain₁) chart₁ chart₂, gain₁ || gain₂)
  | .plus _ body, .plus marks chart, leads, c =>
    let gain := body.gains chart c
    let (chart, _) := body.surveyPlace chart (leads || gain) c
    (.plus (marks.push gain) chart, gain)
  | _, chart, _, _ => (chart, false)

/-- The survey of a text: its length, the marks of the whole expression, and its chart. -/
structure Survey where
  size : Nat
  marks : Column
  chart : Chart

/-- The survey of a text of which no place is surveyed. -/
def blankSurvey (r : Regex) (size : Nat) : Survey :=
  ⟨size, .empty, r.blankChart⟩

/-- Surveys one place more. -/
def Survey.extend (r : Regex) (c : Cursor) (s : Survey) : Survey :=
  let ⟨size, marks, chart⟩ := s
  let (chart, gain) := r.surveyPlace chart true c
  ⟨size, marks.push gain, chart⟩

/-- Surveys a whole text, from its end to its start. -/
def survey (r : Regex) (text : List Char) : Survey :=
  (Cursor.places text).foldr (Survey.extend r) (r.blankSurvey text.length)

/-- Runs further rounds of a loop. After each, `leads` says whether the loop may end there, and
`marks` whether another round is possible. -/
def walkRounds (greedy : Bool) (size : Nat) (marks : Column) (leads : Cursor → Bool)
    (body : Cursor → Captures → Cursor × Captures) : Nat → Cursor → Captures → Cursor × Captures
  | 0, c, ks => (c, ks)
  | fuel + 1, c, ks =>
    if (if greedy then marks.get size c.offset else !leads c) then
      let (d, ks) := body c ks
      walkRounds greedy size marks leads body fuel d ks
    else (c, ks)

/-- The preferred match of an expression from a place, among those that come to a match of the
whole: `leads` says which places after the expression do, and `stays` whether this place does if
the expression takes no character. -/
def walk (size : Nat) : Regex → Chart → (leads : Cursor → Bool) → (stays : Bool) → Cursor →
    Captures → Cursor × Captures
  | .set _, _, _, _, c, ks => (c.next, ks)
  | .group name body, .group chart, leads, stays, c, ks =>
    let (d, ks) := body.walk size chart leads stays c ks
    (d, ⟨name, c, d.offset⟩ :: ks)
  | .seq first second, .seq marks chart₁ chart₂, leads, stays, c, ks =>
    let (d, ks) := first.walk size chart₁
      (fun d => marks.get size d.offset || (second.nullable d && leads d))
      (marks.get size c.offset || (second.nullable c && stays)) c ks
    second.walk size chart₂ leads (if d.offset = c.offset then stays else leads d) d ks
  | .alt first second, .alt marks chart₁ chart₂, leads, stays, c, ks =>
    if marks.get size c.offset || (first.nullable c && stays) then
      first.walk size chart₁ leads stays c ks
    else second.walk size chart₂ leads stays c ks
  | .plus greedy body, .plus marks chart, leads, stays, c, ks =>
    let more := fun d => leads d || marks.get size d.offset
    let (d, ks) := body.walk size chart more stays c ks
    if d.offset = c.offset then (d, ks)
    else
      walkRounds greedy size marks leads (fun d ks => body.walk size chart more false d ks)
        (size - d.offset) d ks
  | _, _, _, _, c, ks => (c, ks)

/-- The preferred match from a place of the surveyed text, if there is one. -/
def Survey.attempt (r : Regex) (s : Survey) (c : Cursor) : Option (Cursor × Captures) :=
  if s.marks.get s.size c.offset || r.nullable c then
    some (r.walk s.size s.chart (fun _ => true) true c [])
  else none

end CodeOutline.Regex
