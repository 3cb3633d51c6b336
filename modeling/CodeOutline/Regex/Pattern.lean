import CodeOutline.Regex.Basic
import CodeOutline.Regex.Expression.Basic

/-! # Patterns

Expressions with their flags worked in: sets of characters in place of classes, conditions in place
of anchors. Counted rounds are still counted, so that a pattern is not larger than its text; as a
regular expression each round is written out.

Patterns are put together in their simplest form. What all branches of a choice start with stands
before the choice, which is more than a matter of form: of several ways to match the common start,
the first one that leads to any branch is taken.
-/

namespace CodeOutline.Regex

inductive Pattern
  | empty
  /-- Characters one after the other. -/
  | literal (chars : List Char)
  | set (chars : CharSet)
  | look (l : Look)
  | group (name : Option String) (body : Pattern)
  | rounds (least : Nat) (most : Option Nat) (greedy : Bool) (body : Pattern)
  | concat (items : List Pattern)
  | choice (branches : List Pattern)
  deriving Inhabited

/-- The body, or the empty text, in the order that greed asks for. -/
def optional (greedy : Bool) (body : Regex) : Regex :=
  if greedy then opt body else lazyOpt body

/-- `count` rounds of the body, then what follows. -/
def times (body : Regex) : Nat → Regex → Regex
  | 0, last => last
  | count + 1, last => .seq body (times body count last)

/-- At most `count + 1` rounds of the body. -/
def upTo (greedy : Bool) (body : Regex) : Nat → Regex
  | 0 => optional greedy body
  | count + 1 => optional greedy (.seq body (upTo greedy body count))

/-- From `least` to `most` rounds of the body. -/
def counted (least : Nat) (most : Option Nat) (greedy : Bool) (body : Regex) : Regex :=
  match least, most with
  | 0, none => optional greedy (.plus greedy body)
  | least + 1, none => times body least (.plus greedy body)
  | 0, some 0 => .empty
  | least + 1, some most =>
    if most ≤ least + 1 then times body least body
    else times body (least + 1) (upTo greedy body (most - least - 2))
  | 0, some (most + 1) => upTo greedy body most

mutual

/-- The pattern as a regular expression. -/
def Pattern.toRegex : Pattern → Regex
  | .empty => .empty
  | .literal chars => Regex.concat (chars.map Regex.char)
  | .set chars => .set chars
  | .look l => .look l
  | .group (some name) body => .group name body.toRegex
  | .group none body => body.toRegex
  | .rounds least most greedy body => counted least most greedy body.toRegex
  | .concat items => Regex.concat (Pattern.toRegexes items)
  | .choice branches => Regex.choice (Pattern.toRegexes branches)

def Pattern.toRegexes : List Pattern → List Regex
  | [] => []
  | item :: items => item.toRegex :: Pattern.toRegexes items

end

/-! ## Simplest forms -/

namespace Pattern

mutual

/-- The pattern can match the empty text. -/
def canBeEmpty : Pattern → Bool
  | .empty => true
  | .literal _ => false
  | .set s => s.ranges.isEmpty
  | .look _ => true
  | .group _ body => body.canBeEmpty
  | .rounds least _ _ body => least == 0 || body.canBeEmpty
  | .concat items => allCanBeEmpty items
  | .choice branches => anyCanBeEmpty branches

def allCanBeEmpty : List Pattern → Bool
  | [] => true
  | item :: items => item.canBeEmpty && allCanBeEmpty items

def anyCanBeEmpty : List Pattern → Bool
  | [] => false
  | branch :: branches => branch.canBeEmpty || anyCanBeEmpty branches

end

mutual

/-- The pattern matches the empty text only. -/
def isEmptyOnly : Pattern → Bool
  | .empty => true
  | .literal _ => false
  | .set _ => false
  | .look _ => true
  | .group _ body => body.isEmptyOnly
  | .rounds _ most _ body => most == some 0 || body.isEmptyOnly
  | .concat items => areEmptyOnly items
  | .choice branches => areEmptyOnly branches

def areEmptyOnly : List Pattern → Bool
  | [] => true
  | item :: items => item.isEmptyOnly && areEmptyOnly items

end

mutual

/-- The patterns are the same. A group is never the same as another one. -/
def same : Pattern → Pattern → Bool
  | .empty, .empty => true
  | .literal chars, .literal others => chars == others
  | .set s, .set t => s == t
  | .look l, .look m => l == m
  | .rounds least most greedy body, .rounds least' most' greedy' body' =>
    least == least' && most == most' && greedy == greedy' && body.same body'
  | .concat items, .concat others => allSame items others
  | .choice branches, .choice others => allSame branches others
  | _, _ => false

def allSame : List Pattern → List Pattern → Bool
  | [], [] => true
  | p :: ps, q :: qs => p.same q && allSame ps qs
  | _, _ => false

end

/-- A set of one character is that character. -/
def ofSet (s : CharSet) : Pattern :=
  match s.ranges with
  | [r] => if r.1 = r.2 ∧ (Char.ofNat r.1).toNat = r.1 then .literal [Char.ofNat r.1] else .set s
  | _ => .set s

/-- Rounds of a body. More than one round of the empty text are one, one round is the body, and a
body of no rounds is left out, its groups included. -/
def ofRounds (least : Nat) (most : Option Nat) (greedy : Bool) (body : Pattern) : Pattern :=
  let (least, most) :=
    if body.isEmptyOnly then (min least 1, some (min (most.getD 1) 1)) else (least, most)
  if least = 0 ∧ most = some 0 then .empty
  else if least = 1 ∧ most = some 1 then body
  else .rounds least most greedy body

/-- The patterns that one consists of, one after the other. -/
def items : Pattern → List Pattern
  | .empty => []
  | .concat items => items
  | p => [p]

/-- Literals that stand side by side are one. -/
def joinLiterals : List Pattern → List Pattern
  | [] => []
  | .literal chars :: rest =>
    match joinLiterals rest with
    | .literal more :: rest => .literal (chars ++ more) :: rest
    | rest => .literal chars :: rest
  | p :: rest => p :: joinLiterals rest

def ofItems (ps : List Pattern) : Pattern :=
  match joinLiterals (ps.flatMap items) with
  | [] => .empty
  | [p] => p
  | ps => .concat ps

def branches : Pattern → List Pattern
  | .choice branches => branches
  | p => [p]

/-- A pattern that is one character. -/
def char? : Pattern → Option Char
  | .literal [c] => some c
  | _ => none

/-- The ranges of a pattern that is a set. -/
def ranges? : Pattern → Option (List Unicode.Range)
  | .set s => some s.ranges
  | _ => none

/-- What branches choose from, if all of them are characters or all of them are sets. -/
def union? (branches : List Pattern) : Option CharSet :=
  match branches.mapM char? with
  | some chars => some (.ofRanges (chars.map fun c => (c.toNat, c.toNat)))
  | none => (branches.mapM ranges?).map fun rs => .ofRanges rs.flatten

/-- The first of some branches, among which choices are spread out. -/
def ofBranches (ps : List Pattern) : Pattern :=
  match ps.flatMap branches with
  | [] => .set .empty
  | [p] => p
  | ps =>
    match union? ps with
    | some s => ofSet s
    | none => .choice ps

/-- What two lists of items start with alike. -/
def sharedStart : List Pattern → List Pattern → List Pattern
  | p :: ps, q :: qs => if p.same q then p :: sharedStart ps qs else []
  | _, _ => []

/-- What all branches start with, if each of them is more than one item. -/
def commonStart : List Pattern → List Pattern
  | [] => []
  | [p] => (several p)
  | p :: ps => sharedStart (several p) (commonStart ps)
where
  several : Pattern → List Pattern
    | .concat items => items
    | _ => []

/-- The common start of some branches, and then the first of what is left of them. -/
def ofChoice (ps : List Pattern) : Pattern :=
  match ofBranches ps with
  | .choice ps =>
    match commonStart ps with
    | [] => .choice ps
    | start => ofItems (start ++ [ofBranches (ps.map fun p => ofItems (p.items.drop start.length))])
  | p => p

end Pattern

/-! ## Flags -/

structure Flags where
  caseless : Bool
  multiLine : Bool
  dotAll : Bool
  swapGreed : Bool
  unicode : Bool
  crlf : Bool
  deriving DecidableEq, Repr

/-- The flags of a pattern at its start: anchors match at lines, a point matches line ends too, and
classes are those of Unicode. -/
def Flags.initial : Flags := ⟨false, true, true, false, true, false⟩

def Flags.change (f : Flags) (c : FlagChange) : Flags :=
  ⟨c.caseless.getD f.caseless, c.multiLine.getD f.multiLine, c.dotAll.getD f.dotAll,
    c.swapGreed.getD f.swapGreed, c.unicode.getD f.unicode, c.crlf.getD f.crlf⟩

/-- Adds the other case to a set, if the flags ask for it. -/
def Flags.fold (f : Flags) (s : CharSet) : CharSet :=
  if f.caseless then if f.unicode then s.foldCase else s.foldAsciiCase else s

/-- Folds a set and negates it. Without Unicode a negated set would take in parts of characters,
so there is none. -/
def Flags.foldAndNegate (f : Flags) (negated : Bool) (s : CharSet) : Option CharSet :=
  if negated then if f.unicode then some (f.fold s).complement else none else some (f.fold s)

/-- A literal character. A byte beyond ASCII is no character. -/
def Flags.literal? (f : Flags) (l : Literal) : Option Char :=
  if !f.unicode && l.byte && l.char.toNat > 0x7F then none else some l.char

/-- A literal character in a class, which without Unicode has to be ASCII. -/
def Flags.member? (f : Flags) (l : Literal) : Option Char :=
  if !f.unicode && l.char.toNat > 0x7F then none else some l.char

def Flags.letterClass? (f : Flags) (kind : LetterClass) (negated : Bool) : Option CharSet :=
  if f.unicode then
    let s := match kind with
      | .digit => CharSet.digit
      | .blank => CharSet.blank
      | .word => CharSet.word
    some (if negated then s.complement else s)
  else if negated then none
  else
    some ⟨match kind with
      | .digit => AsciiClass.digit.ranges
      | .blank => AsciiClass.space.ranges
      | .word => AsciiClass.word.ranges⟩

/-- A property class, which needs Unicode. -/
def Flags.property? (f : Flags) (query : Unicode.Query) (negated : Bool) : Option CharSet :=
  if f.unicode then query.ranges?.bind fun rs => f.foldAndNegate negated (.ofRanges rs) else none

/-- What the point matches. Without Unicode it would match parts of characters. -/
def Flags.dot? (f : Flags) : Option CharSet :=
  if !f.unicode then none
  else if f.dotAll then some .any
  else if f.crlf then some (CharSet.ofRanges [(0x0A, 0x0A), (0x0D, 0x0D)]).complement
  else some (CharSet.singleton '\n').complement

def Flags.anchor (f : Flags) : Anchor → Look
  | .lineStart => if f.multiLine then if f.crlf then .lineStartCrlf else .lineStart else .textStart
  | .lineEnd => if f.multiLine then if f.crlf then .lineEndCrlf else .lineEnd else .textEnd
  | .textStart => .textStart
  | .textEnd => .textEnd
  | .wordEdge => .wordEdge f.unicode
  | .notWordEdge => .notWordEdge f.unicode
  | .wordStart => .wordStart f.unicode
  | .wordEnd => .wordEnd f.unicode
  | .wordStartHalf => .wordStartHalf f.unicode
  | .wordEndHalf => .wordEndHalf f.unicode

mutual

/-- The set that an item of a class stands for. -/
def ClassItem.set? (f : Flags) : ClassItem → Option CharSet
  | .nothing => some .empty
  | .char l => (f.member? l).map CharSet.singleton
  | .range first last => do
    let first ← f.member? first
    let last ← f.member? last
    return CharSet.ofRange first last
  | .ascii kind negated => f.foldAndNegate negated ⟨kind.ranges⟩
  | .property query negated => f.property? query negated
  | .letter kind negated => f.letterClass? kind negated
  | .bracket negated item => (item.set? f).bind (f.foldAndNegate negated)
  | .union items => (ClassItem.sets? f items).map fun sets =>
      CharSet.ofRanges (sets.flatMap (·.ranges))
  | .operation op left right => do
    let left := f.fold (← left.set? f)
    let right := f.fold (← right.set? f)
    return match op with
      | .inter => left.inter right
      | .diff => left.diff right
      | .symmDiff => left.symmDiff right

def ClassItem.sets? (f : Flags) : List ClassItem → Option (List CharSet)
  | [] => some []
  | item :: items => do
    let set ← item.set? f
    let sets ← ClassItem.sets? f items
    return set :: sets

end

mutual

/-- The pattern of an expression under flags, and the flags after it. -/
def Expression.pattern? : Flags → Expression → Option (Pattern × Flags)
  | f, .empty => some (.empty, f)
  | f, .flags change => some (.empty, f.change change)
  | f, .char l => do
    let c ← f.literal? l
    return (.ofSet (f.fold (CharSet.singleton c)), f)
  | f, .dot => do return (.ofSet (← f.dot?), f)
  | f, .anchor a => some (.look (f.anchor a), f)
  | f, .letter kind negated => do return (.ofSet (← f.letterClass? kind negated), f)
  | f, .property query negated => do return (.ofSet (← f.property? query negated), f)
  | f, .bracket negated item => do
    let s ← item.set? f
    return (.ofSet (← f.foldAndNegate negated s), f)
  | f, .rounds least most greedy body => do
    let (body, f) ← body.pattern? f
    return (.ofRounds least most (greedy != f.swapGreed) body, f)
  | f, .group (.capture name) body => do
    let (body, _) ← body.pattern? f
    return (.group name body, f)
  | f, .group (.flagged change) body => do
    let (body, _) ← body.pattern? (f.change change)
    return (body, f)
  | f, .concat items => do
    let (items, f) ← Expression.patterns? f items
    return (.ofItems items, f)
  | f, .choice branches => do
    let (branches, f) ← Expression.patterns? f branches
    return (.ofChoice branches, f)

def Expression.patterns? : Flags → List Expression → Option (List Pattern × Flags)
  | f, [] => some ([], f)
  | f, item :: items => do
    let (item, f) ← item.pattern? f
    let (items, f) ← Expression.patterns? f items
    return (item :: items, f)

end

end CodeOutline.Regex
