/-! # Globs

Patterns for paths. A question mark stands for one character and an asterisk for any text, both
over slashes too. Brackets stand for one character of a class. Two asterisks that fill a part of
the path stand for any number of whole parts.
-/

namespace CodeOutline

/-- A member of a class of characters. -/
inductive Glob.Specifier
  | single (c : Char)
  | range (first last : Char)
  deriving DecidableEq, Repr

inductive Glob.Token
  | char (c : Char)
  | anyChar
  /-- Any text. -/
  | anySequence
  /-- Any number of whole parts of a path. -/
  | anyParts
  | within (members : List Glob.Specifier)
  | except (members : List Glob.Specifier)
  deriving DecidableEq, Repr

abbrev Glob := List Glob.Token

namespace Glob

/-- What can be wrong with a glob. -/
inductive Problem
  | wildcards
  | recursiveWildcards
  | invalidRange
  deriving DecidableEq, Repr

def Problem.message : Problem → String
  | .wildcards => "wildcards are either regular `*` or recursive `**`"
  | .recursiveWildcards => "recursive wildcards must form a single path component"
  | .invalidRange => "invalid range pattern"

/-- A problem and the number of characters before it. -/
structure Error where
  position : Nat
  problem : Problem
  deriving DecidableEq, Repr

def Error.message (e : Error) : String :=
  "Pattern syntax error near position " ++ toString e.position ++ ": " ++ e.problem.message

/-- The members of a class: a hyphen between two characters makes a range of them. -/
def specifiers : List Char → List Specifier
  | a :: '-' :: b :: rest => .range a b :: specifiers rest
  | a :: rest => .single a :: specifiers rest
  | [] => []

/-- Splits the text of a class from what follows its closing bracket, which is not its first
character. -/
def splitClass? (cs : List Char) : Option (List Char × List Char) :=
  match cs with
  | [] => none
  | first :: cs =>
    match cs.dropWhile (· != ']') with
    | ']' :: rest => some (first :: cs.takeWhile (· != ']'), rest)
    | _ => none

/-- The class after an opening bracket, the length of its text, and the rest. -/
def parseClass? (cs : List Char) : Option (Token × Nat × List Char) :=
  match cs with
  | '!' :: cs =>
    (splitClass? cs).map fun (text, rest) => (.except (specifiers text), text.length + 3, rest)
  | cs => (splitClass? cs).map fun (text, rest) => (.within (specifiers text), text.length + 2, rest)

/-- Adds the token for whole parts, unless it would stand twice in a row after another token. -/
def pushParts (done : List Token) : List Token :=
  match done with
  | .anyParts :: _ :: _ => done
  | _ => .anyParts :: done

/-- Reads tokens from a position on. `before` is the character before it, and `done` are the tokens
already read, backwards. The fuel is the length of the text. -/
def parseFrom : Nat → (position : Nat) → (before : Option Char) → List Token → List Char →
    Except Error Glob
  | fuel + 1, position, before, done, c :: cs =>
    if c = '?' then parseFrom fuel (position + 1) (some c) (.anyChar :: done) cs
    else if c = '*' then
      let count := (cs.takeWhile (· == '*')).length + 1
      let rest := cs.dropWhile (· == '*')
      if count > 2 then .error ⟨position + 2, .wildcards⟩
      else if count = 2 then
        if before.isNone || before == some '/' then
          match rest with
          | [] => .ok (pushParts done).reverse
          | next :: rest =>
            if next = '/' then parseFrom fuel (position + 3) (some '/') (pushParts done) rest
            else .error ⟨position + 2, .recursiveWildcards⟩
        else .error ⟨position - 1, .recursiveWildcards⟩
      else parseFrom fuel (position + 1) (some c) (.anySequence :: done) rest
    else if c = '[' then
      match parseClass? cs with
      | some (token, length, rest) =>
        parseFrom fuel (position + length) (some ']') (token :: done) rest
      | none => .error ⟨position, .invalidRange⟩
    else parseFrom fuel (position + 1) (some c) (.char c :: done) cs
  | _, _, _, done, _ => .ok done.reverse

/-- The glob that a text writes. -/
def parse (s : String) : Except Error Glob :=
  let cs := s.toList
  parseFrom cs.length 0 none [] cs

/-! ## Matching -/

def Specifier.contains (s : Specifier) (c : Char) : Bool :=
  match s with
  | .single d => c == d
  | .range first last => first ≤ c && c ≤ last

/-- The character fits a token that stands for one character. -/
def Token.accepts (t : Token) (c : Char) : Bool :=
  match t with
  | .char d => c == d
  | .anyChar => true
  | .within members => members.any (·.contains c)
  | .except members => !members.any (·.contains c)
  | .anySequence => false
  | .anyParts => false

/-- The result of a comparison. When the text ends before the tokens do, no longer text for a
token before them helps. -/
inductive Result
  | isMatch
  | mismatch
  | outOfText
  deriving DecidableEq, Repr

/-- Tries longer and longer texts for a token of any length; `next` compares what follows it. For
whole parts only the places after a slash count. -/
def tryLonger (next : Bool → List Char → Result) (parts : Bool) (afterSlash : Bool) :
    List Char → Result
  | [] => next afterSlash []
  | c :: cs =>
    let afterSlash := c == '/'
    if parts && !afterSlash then tryLonger next parts afterSlash cs
    else
      match next afterSlash cs with
      | .mismatch => tryLonger next parts afterSlash cs
      | result => result

/-- Compares tokens with a text, which starts a part of a path or not. -/
def compareFrom : List Token → Bool → List Char → Result
  | [], _, [] => .isMatch
  | [], _, _ :: _ => .mismatch
  | t :: ts, afterSlash, cs =>
    if t = .anySequence ∨ t = .anyParts then
      match compareFrom ts afterSlash cs with
      | .mismatch => tryLonger (compareFrom ts) (t == .anyParts) afterSlash cs
      | result => result
    else
      match cs with
      | [] => .outOfText
      | c :: cs => if t.accepts c then compareFrom ts (c == '/') cs else .mismatch

/-- The glob matches the whole of a path. -/
def isMatch (g : Glob) (path : String) : Bool :=
  compareFrom g true path.toList == .isMatch

end Glob

end CodeOutline
