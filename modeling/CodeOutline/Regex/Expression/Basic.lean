import CodeOutline.Unicode.Lookup

/-! # Written expressions

Expressions as they are written in a pattern, before flags are taken into account.
-/

namespace CodeOutline.Regex

/-- A literal character. `byte` tells that it is written as the two hexadecimal digits of a byte. -/
structure Literal where
  char : Char
  byte : Bool
  deriving DecidableEq, Repr

/-- The classes that are named by a letter after a backslash. -/
inductive LetterClass
  | digit | blank | word
  deriving DecidableEq, Repr

/-- The classes that are named between colons inside a bracketed class. -/
inductive AsciiClass
  | alnum | alpha | ascii | blank | cntrl | digit | graph | lower | print | punct | space | upper
  | word | xdigit
  deriving DecidableEq, Repr

namespace AsciiClass

def ofName? : String → Option AsciiClass
  | "alnum" => some alnum
  | "alpha" => some alpha
  | "ascii" => some ascii
  | "blank" => some blank
  | "cntrl" => some cntrl
  | "digit" => some digit
  | "graph" => some graph
  | "lower" => some lower
  | "print" => some print
  | "punct" => some punct
  | "space" => some space
  | "upper" => some upper
  | "word" => some word
  | "xdigit" => some xdigit
  | _ => none

def ranges : AsciiClass → List Unicode.Range
  | alnum => [(0x30, 0x39), (0x41, 0x5A), (0x61, 0x7A)]
  | alpha => [(0x41, 0x5A), (0x61, 0x7A)]
  | ascii => [(0, 0x7F)]
  | blank => [(0x09, 0x09), (0x20, 0x20)]
  | cntrl => [(0, 0x1F), (0x7F, 0x7F)]
  | digit => [(0x30, 0x39)]
  | graph => [(0x21, 0x7E)]
  | lower => [(0x61, 0x7A)]
  | print => [(0x20, 0x7E)]
  | punct => [(0x21, 0x2F), (0x3A, 0x40), (0x5B, 0x60), (0x7B, 0x7E)]
  | space => [(0x09, 0x0D), (0x20, 0x20)]
  | upper => [(0x41, 0x5A)]
  | word => [(0x30, 0x39), (0x41, 0x5A), (0x5F, 0x5F), (0x61, 0x7A)]
  | xdigit => [(0x30, 0x39), (0x41, 0x46), (0x61, 0x66)]

end AsciiClass

/-- The operations on sets inside a bracketed class. -/
inductive SetOperation
  | inter | diff | symmDiff
  deriving DecidableEq, Repr

/-- What stands in a bracketed class. -/
inductive ClassItem
  | nothing
  | char (l : Literal)
  | range (first last : Literal)
  | ascii (kind : AsciiClass) (negated : Bool)
  | property (query : Unicode.Query) (negated : Bool)
  | letter (kind : LetterClass) (negated : Bool)
  | bracket (negated : Bool) (item : ClassItem)
  | union (items : List ClassItem)
  | operation (op : SetOperation) (left right : ClassItem)

/-- The items of a class as one item. -/
def ClassItem.ofItems : List ClassItem → ClassItem
  | [] => .nothing
  | [item] => item
  | items => .union items

/-- Conditions on a place, as they are written. -/
inductive Anchor
  | lineStart | lineEnd | textStart | textEnd
  | wordEdge | notWordEdge | wordStart | wordEnd | wordStartHalf | wordEndHalf
  deriving DecidableEq, Repr

/-- Switched flags: none for a flag that is left alone. -/
structure FlagChange where
  caseless : Option Bool
  multiLine : Option Bool
  dotAll : Option Bool
  swapGreed : Option Bool
  unicode : Option Bool
  crlf : Option Bool
  extended : Option Bool
  deriving DecidableEq, Repr

def FlagChange.none : FlagChange := ⟨.none, .none, .none, .none, .none, .none, .none⟩

/-- The kinds of groups. -/
inductive GroupKind
  | capture (name : Option String)
  | flagged (change : FlagChange)
  deriving DecidableEq, Repr

inductive Expression
  | empty
  | flags (change : FlagChange)
  | char (l : Literal)
  | dot
  | anchor (a : Anchor)
  | letter (kind : LetterClass) (negated : Bool)
  | property (query : Unicode.Query) (negated : Bool)
  | bracket (negated : Bool) (item : ClassItem)
  /-- From `least` to `most` rounds, where none stands for any number. -/
  | rounds (least : Nat) (most : Option Nat) (greedy : Bool) (body : Expression)
  | group (kind : GroupKind) (body : Expression)
  | concat (items : List Expression)
  | choice (branches : List Expression)

namespace Expression

/-- The items of a sequence as one expression. -/
def ofItems : List Expression → Expression
  | [] => .empty
  | [item] => item
  | items => .concat items

/-- The branches of an alternative as one expression. -/
def ofBranches : List Expression → Expression
  | [branch] => branch
  | branches => .choice branches

/-- A round operator can stand after the expression. -/
def isRepeatable : Expression → Bool
  | .empty => false
  | .flags _ => false
  | _ => true

end Expression

mutual

/-- How deeply brackets, unions and operations are nested in a class. -/
def ClassItem.depth : ClassItem → Nat
  | .bracket _ item => item.depth + 1
  | .union items => ClassItem.depthAll items + 1
  | .operation _ left right => max left.depth right.depth + 1
  | _ => 0

def ClassItem.depthAll : List ClassItem → Nat
  | [] => 0
  | item :: items => max item.depth (ClassItem.depthAll items)

end

mutual

/-- How deeply an expression is nested. -/
def Expression.depth : Expression → Nat
  | .bracket _ item => item.depth + 1
  | .rounds _ _ _ body => body.depth + 1
  | .group _ body => body.depth + 1
  | .concat items => Expression.depthAll items + 1
  | .choice branches => Expression.depthAll branches + 1
  | _ => 0

def Expression.depthAll : List Expression → Nat
  | [] => 0
  | item :: items => max item.depth (Expression.depthAll items)

end

end CodeOutline.Regex
