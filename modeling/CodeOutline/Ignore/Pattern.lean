import CodeOutline.Regex.Search

/-! # Patterns of ignore files

A pattern matches a whole path, byte by byte. A question mark stands for one byte other than a
slash and an asterisk for any number of them. Two asterisks between slashes, or between a slash and
an end of the pattern, stand for any directories. Brackets stand for one byte of a class, braces for
one of several patterns, and a backslash takes the character after it as it is.
-/

namespace CodeOutline.Ignore

inductive Token
  | char (c : Char)
  /-- One byte other than a slash. -/
  | anyByte
  /-- Any bytes other than slashes. -/
  | anyBytes
  /-- Any directories at the start of the path. -/
  | leadingParts
  /-- A slash and all that is below. -/
  | trailingParts
  /-- A slash, or any directories between two slashes. -/
  | innerParts
  | within (negated : Bool) (ranges : List (Char × Char))
  | choice (branches : List (List Token))
  deriving Inhabited

/-! ## Reading -/

/-- An alternative in braces under way: its finished branches and the tokens of the one being read,
both backwards. The pattern as a whole is a level with one branch. -/
structure Level where
  branches : List (List Token)
  tokens : List Token

/-- The levels under way: the innermost one, and those around it. -/
structure Levels where
  inner : Level
  outer : List Level

namespace Levels

def start : Levels := ⟨⟨[], []⟩, []⟩

def push (ls : Levels) (ts : List Token) : Levels :=
  { ls with inner.tokens := ts ++ ls.inner.tokens }

/-- Starts an alternative. -/
def openBrace (ls : Levels) : Levels :=
  ⟨⟨[], []⟩, ls.inner :: ls.outer⟩

/-- Starts the next branch of the innermost alternative. -/
def nextBranch (ls : Levels) : Levels :=
  { ls with inner := ⟨ls.inner.tokens.reverse :: ls.inner.branches, []⟩ }

/-- Ends the innermost alternative, if there is one. -/
def closeBrace? (ls : Levels) : Option Levels :=
  match ls.outer with
  | [] => none
  | around :: outer =>
    let branches := (ls.nextBranch.inner.branches).reverse
    some ⟨{ around with tokens := .choice branches :: around.tokens }, outer⟩

/-- The tokens of the whole pattern, unless an alternative is still open. -/
def finish? (ls : Levels) : Option (List Token) :=
  if ls.outer.isEmpty then some ls.inner.tokens.reverse else none

/-- Reads the second of two asterisks in a row, where `before` is the character before them. Given
back are the levels and the rest. -/
def readStars (ls : Levels) (before : Option Char) (rest : List Char) : Levels × List Char :=
  let plain := (ls.push [.anyBytes, .anyBytes], rest)
  match ls.inner.tokens with
  | [] =>
    match rest with
    | [] => (ls.push [.leadingParts], [])
    | '/' :: rest => (ls.push [.leadingParts], rest)
    | _ => plain
  | last :: earlier =>
    let inBraces := !ls.outer.isEmpty
    let startsPart := before == some '/' ||
      (inBraces && (before == some ',' || before == some '\x7b'))
    let replaceLast (t : Token) : Levels :=
      match last with
      | .leadingParts => ls
      | .trailingParts => ls
      | _ => { ls with inner.tokens := t :: earlier }
    if startsPart then
      match rest with
      | [] => (replaceLast .trailingParts, [])
      | '/' :: rest => (replaceLast .innerParts, rest)
      | c :: _ =>
        if inBraces && (c == ',' || c == '\x7d') then (replaceLast .trailingParts, rest) else plain
    else plain

end Levels

/-- What became of a class. -/
inductive ClassResult
  | read (token : Token) (rest : List Char)
  | unclosed
  /-- A range ends before it starts. -/
  | invalid

/-- Reads the characters of a class up to its closing bracket. `ranges` are those read, the last one
first, and `inRange` says that a hyphen after the last one waits for its end. -/
def readRanges (negated first inRange : Bool) (ranges : List (Char × Char)) :
    List Char → ClassResult
  | [] => .unclosed
  | c :: cs =>
    if c = ']' ∧ !first then
      let ranges := if inRange then ('-', '-') :: ranges else ranges
      .read (.within negated ranges.reverse) cs
    else if c = '-' ∧ !first ∧ !inRange then readRanges negated false true ranges cs
    else
      match inRange, ranges with
      | true, (low, _) :: earlier =>
        if c < low then .invalid else readRanges negated false false ((low, c) :: earlier) cs
      | _, _ => readRanges negated false false ((c, c) :: ranges) cs

/-- Reads a class after its opening bracket. -/
def readClass : List Char → ClassResult
  | '!' :: cs => readRanges true true false [] cs
  | '^' :: cs => readRanges true true false [] cs
  | cs => readRanges false true false [] cs

/-- Reads tokens to the end of the pattern. `brackets` says whether brackets can still make a class,
which they cannot after one that is not closed. `before` is the character before. The fuel is the
length of the text. -/
def readTokens : Nat → (brackets : Bool) → (before : Option Char) → Levels → List Char →
    Option (List Token)
  | fuel + 1, brackets, before, ls, c :: cs =>
    let next (ls : Levels) (cs : List Char) : Option (List Token) :=
      readTokens fuel brackets (some c) ls cs
    if c = '?' then next (ls.push [.anyByte]) cs
    else if c = '*' then
      match cs with
      | '*' :: cs =>
        let (ls, rest) := ls.readStars before cs
        let before := if rest.length < cs.length then some '/' else some '*'
        readTokens fuel brackets before ls rest
      | cs => next (ls.push [.anyBytes]) cs
    else if c = '[' ∧ brackets then
      match readClass cs with
      | .read token rest => readTokens fuel brackets (some ']') (ls.push [token]) rest
      | .unclosed => readTokens fuel false (some c) (ls.push [.char c]) cs
      | .invalid => none
    else if c = '\x7b' then next ls.openBrace cs
    else if c = '\x7d' then
      match ls.closeBrace? with
      | some ls => next ls cs
      | none => none
    else if c = ',' ∧ !ls.outer.isEmpty then next ls.nextBranch cs
    else if c = '\\' then
      match cs with
      | [] => none
      | c :: cs => readTokens fuel brackets (some c) (ls.push [.char c]) cs
    else next (ls.push [.char c]) cs
  | _, _, _, ls, _ => ls.finish?

/-- The tokens of a pattern that is well formed. -/
def tokens? (pattern : List Char) : Option (List Token) :=
  readTokens pattern.length true none .start pattern

/-! ## Meaning -/

/-- Bytes, each as the character with its number. -/
def byteChars (bytes : List UInt8) : List Char :=
  bytes.map fun b => Char.ofNat b.toNat

/-- The bytes of a character. -/
def charBytes (c : Char) : List Char :=
  byteChars (String.singleton c).toUTF8.data.toList

def byteSet (ranges : List (Nat × Nat)) : Regex :=
  .set (.ofRanges ranges)

def anyByte : Regex := byteSet [(0, 0xFF)]

def notSlash : Regex := byteSet [(0, 0x2E), (0x30, 0xFF)]

def slash : Regex := .char '/'

/-- The bytes of a class. Of the bytes of a range, the last of its start and the first of its end
make a range, and all others stand for themselves. -/
def classRanges (ranges : List (Char × Char)) : List (Nat × Nat) :=
  ranges.flatMap fun (first, last) =>
    let low := (charBytes first).map Char.toNat
    let high := (charBytes last).map Char.toNat
    if first = last then low.map fun b => (b, b)
    else
      (low.dropLast.map fun b => (b, b)) ++
        (low.getLast?.bind fun b => high.head?.map fun c => (b, c)).toList ++
        high.tail.map fun b => (b, b)

mutual

/-- The expression for a token. A choice between empty patterns only has none. -/
def Token.regex? : Token → Option Regex
  | .char c => some (.concat ((charBytes c).map Regex.char))
  | .anyByte => some notSlash
  | .anyBytes => some (.star notSlash)
  | .leadingParts => some (.alt (.opt slash) (.seq (.star Ignore.anyByte) slash))
  | .trailingParts => some (.seq slash (.star Ignore.anyByte))
  | .innerParts => some (.alt slash (.concat [slash, .star Ignore.anyByte, slash]))
  | .within negated ranges =>
    let set := Regex.CharSet.ofRanges (classRanges ranges)
    some (.set (if negated then (Regex.CharSet.ofRanges [(0, 0xFF)]).diff set else set))
  | .choice branches =>
    match Token.branchRegexes branches with
    | [] => none
    | branches => some (.choice branches)

def Token.regexes : List Token → List Regex
  | [] => []
  | t :: ts => t.regex?.toList ++ Token.regexes ts

/-- The expressions for the branches that are not empty. -/
def Token.branchRegexes : List (List Token) → List Regex
  | [] => []
  | b :: bs =>
    match Token.regexes b with
    | [] => Token.branchRegexes bs
    | branch => .concat branch :: Token.branchRegexes bs

end

/-- The expression for a pattern, over bytes. Two asterisks alone match every path. -/
def patternRegex : List Token → Regex
  | [.leadingParts] => .star anyByte
  | ts => .concat (Token.regexes ts)

end CodeOutline.Ignore
