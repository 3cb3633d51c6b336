import CodeOutline.Regex.Pattern

/-! # Footprints

The space that the two automata of a pattern take, one that reads forwards and keeps captures and
one that reads backwards. Counted rounds are written out in them, and a set of characters becomes a
tree over the bytes of UTF-8, so that a short pattern can have a large footprint. Patterns beyond a
limit are refused before anything is written out.
-/

namespace CodeOutline.Regex

open Unicode (Range)

/-! ## Bytes of characters -/

/-- The bytes of a code point in UTF-8. -/
def utf8Bytes (n : Nat) : List Nat :=
  if n < 0x80 then [n]
  else if n < 0x800 then [0xC0 + n / 64, 0x80 + n % 64]
  else if n < 0x10000 then [0xE0 + n / 4096, 0x80 + n / 64 % 64, 0x80 + n % 64]
  else [0xF0 + n / 262144, 0x80 + n / 4096 % 64, 0x80 + n / 64 % 64, 0x80 + n % 64]

/-- Where a range has to be cut in two, if it has to be: at the surrogates, where the number of
bytes changes, and so that in each piece every byte runs through a range of its own. Given is the
first code point of the second piece, or none for a range that is one piece. -/
def cutPoint? (first last : Nat) : Option Nat :=
  let byLength (limit : Nat) : Option Nat :=
    if first ≤ limit && limit < last then some (limit + 1) else none
  let byBlock (size : Nat) : Option Nat :=
    if first / size != last / size then
      if first % size != 0 then some ((first / size + 1) * size)
      else if last % size != size - 1 then some (last / size * size)
      else none
    else none
  if first < 0xE000 && last > 0xD7FF && (first < 0xD800 || last > 0xDFFF) then
    if first < 0xD800 then some 0xD800 else some 0xE000
  else
    [byLength 0x7F, byLength 0x7FF, byLength 0xFFFF].findSome? id |>.or <|
      if last < 0x80 then none
      else [byBlock 64, byBlock 4096, byBlock 262144].findSome? id

/-- The ranges of bytes, place by place, that write the code points of a range. Surrogates are left
out. The fuel bounds the cuts, of which a range needs fewer than thirty. -/
def byteRanges : Nat → Nat → Nat → List (List Range)
  | 0, _, _ => []
  | fuel + 1, first, last =>
    if last < first then []
    else
      match cutPoint? first last with
      | some middle => byteRanges fuel first (middle - 1) ++ byteRanges fuel middle last
      | none =>
        if 0xD800 ≤ first && last ≤ 0xDFFF then []
        else [(utf8Bytes first).zip (utf8Bytes last)]

/-- The byte ranges of a set, in order. -/
def CharSet.byteRanges (s : CharSet) : List (List Range) :=
  s.ranges.flatMap fun r => Regex.byteRanges 64 r.1 r.2

/-! ## Trees over bytes -/

/-- Groups sequences that stand next to each other and start with the same range. -/
def groupByHead : List (List Range) → List (Range × List (List Range))
  | [] => []
  | [] :: rest => groupByHead rest
  | (r :: tail) :: rest =>
    match groupByHead rest with
    | (s, tails) :: groups =>
      if r = s then (r, tail :: tails) :: groups else (r, [tail]) :: (s, tails) :: groups
    | [] => [(r, [tail])]

/-- A node of the tree: its ranges, each with the number of the node it leads to. -/
abbrev ByteNode := List (Range × Nat)

/-- Adds the node for some sequences, and the nodes below it, to the nodes there are, unless there
is an equal one. Given back are its number and the nodes; number 0 is the end of a character. The
fuel is the length of the sequences. -/
def addNode : Nat → List ByteNode → List (List Range) → Nat × List ByteNode
  | 0, nodes, _ => (0, nodes)
  | fuel + 1, nodes, seqs =>
    if seqs.all (·.isEmpty) then (0, nodes)
    else
      let (node, nodes) := (groupByHead seqs).foldl (fun (node, nodes) (r, tails) =>
        let (id, nodes) := addNode fuel nodes tails
        ((r, id) :: node, nodes)) (([] : ByteNode), nodes)
      match nodes.findIdx? (· == node) with
      | some i => (nodes.length - i, nodes)
      | none => (nodes.length + 1, node :: nodes)

/-- The number of different beginnings of sequences that stand next to each other. -/
def countBeginnings : Nat → List (List Range) → Nat
  | 0, _ => 0
  | fuel + 1, seqs =>
    (groupByHead seqs).foldl (fun n (_, tails) => n + 1 + countBeginnings fuel tails) 0

/-! ## Sizes -/

/-- The direction in which an automaton reads. -/
inductive Direction
  | forwards | backwards
  deriving DecidableEq, Repr

/-- The bytes of a state, of a transition kept beside it, and of a choice kept beside it. -/
def stateSize : Nat := 32

def transitionSize : Nat := 8

def choiceSize : Nat := 4

/-- The size of a set: one state with a transition for each range if it is ASCII, and else a tree
over bytes, which forwards shares its ends and backwards its beginnings. -/
def CharSet.footprint (direction : Direction) (s : CharSet) : Nat :=
  match s.ranges with
  | [r] =>
    if r.1 = r.2 then stateSize * (utf8Bytes r.1).length
    else if r.2 < 128 then 2 * stateSize + transitionSize
    else treeFootprint s.byteRanges
  | rs =>
    if s.isAscii then 2 * stateSize + transitionSize * rs.length else treeFootprint s.byteRanges
where
  treeFootprint (seqs : List (List Range)) : Nat :=
    match direction with
    | .forwards =>
      let nodes := (addNode 5 [] seqs).2
      nodes.foldl (fun n node => n + stateSize + transitionSize * node.length) stateSize
    | .backwards =>
      2 * stateSize + choiceSize * seqs.length + stateSize * countBeginnings 5 seqs

/-- The size of rounds of a body of a given size. -/
def roundsFootprint (least : Nat) (most : Option Nat) (nullable : Bool) (body : Nat) : Nat :=
  let fork := stateSize + 2 * choiceSize
  match least, most with
  | 0, none => if nullable then body + 2 * fork + stateSize else body + fork
  | least + 1, none => (least + 1) * body + fork
  | 0, some 0 => stateSize
  | 0, some 1 => body + fork + stateSize
  | least, some most =>
    if most ≤ least then least * body
    else (if least = 0 then stateSize else least * body) + stateSize +
      (most - least) * (body + fork)

mutual

/-- The size of a pattern in the automaton of a direction. -/
def Pattern.footprint (direction : Direction) : Pattern → Nat
  | .empty => stateSize
  | .literal chars => stateSize * (String.ofList chars).utf8ByteSize
  | .set s => s.footprint direction
  | .look _ => stateSize
  | .group _ body =>
    body.footprint direction + (if direction = .forwards then 2 * stateSize else 0)
  | .rounds least most _ body =>
    roundsFootprint least most body.canBeEmpty (body.footprint direction)
  | .concat items => Pattern.footprints direction items
  | .choice branches =>
    2 * stateSize + choiceSize * branches.length + Pattern.footprints direction branches

def Pattern.footprints (direction : Direction) : List Pattern → Nat
  | [] => 0
  | item :: items => item.footprint direction + Pattern.footprints direction items

end

/-- What an automaton takes besides its pattern: a loop over the text before a match, the end of a
match, and forwards the bounds of the match. -/
def Direction.overhead : Direction → Nat
  | .forwards => 6 * stateSize + transitionSize + 2 * choiceSize
  | .backwards => 4 * stateSize + transitionSize + 2 * choiceSize

/-- The largest size that either automaton may have. -/
def footprintLimit : Nat := 1048576

/-- Both automata stay within the limit. -/
def Pattern.fits (p : Pattern) : Bool :=
  p.footprint .forwards + Direction.forwards.overhead ≤ footprintLimit &&
    p.footprint .backwards + Direction.backwards.overhead ≤ footprintLimit

end CodeOutline.Regex
