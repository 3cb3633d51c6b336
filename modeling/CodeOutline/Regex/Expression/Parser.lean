import CodeOutline.Regex.Expression.Basic
import CodeOutline.Text.Blank

/-! # Reading expressions

A reader of patterns over lists of characters. Every step returns what it read and the rest of the
pattern, or none when the pattern is malformed. In extended mode blanks and comments stand for
nothing; `extended` tells the mode at the place of a step.
-/

namespace CodeOutline.Regex.Expression

/-- Drops blanks and comments; `comment` tells that a comment has begun. -/
def dropVoid (comment : Bool) : List Char → List Char
  | [] => []
  | c :: cs =>
    if comment then dropVoid (c != '\n') cs
    else if Text.isBlank c then dropVoid false cs
    else if c = '#' then dropVoid true cs
    else c :: cs

/-- Drops blanks and comments in extended mode, and nothing otherwise. -/
def skipVoid (extended : Bool) (cs : List Char) : List Char :=
  if extended then dropVoid false cs else cs

/-! ## Characters -/

def hexValue? (c : Char) : Option Nat :=
  if '0' ≤ c ∧ c ≤ '9' then some (c.toNat - 48)
  else if 'a' ≤ c ∧ c ≤ 'f' then some (c.toNat - 87)
  else if 'A' ≤ c ∧ c ≤ 'F' then some (c.toNat - 55)
  else none

/-- The character of a code point. -/
def charOf? (n : Nat) : Option Char :=
  if n.isValidChar then some (Char.ofNat n) else none

/-- A number of a fixed count of hexadecimal digits. -/
def parseHexDigits (extended : Bool) (value : Nat) : Nat → List Char → Option (Nat × List Char)
  | 0, cs => some (value, cs)
  | count + 1, cs =>
    match skipVoid extended cs with
    | [] => none
    | c :: cs => do
      let d ← hexValue? c
      parseHexDigits extended (value * 16 + d) count cs

/-- The hexadecimal digits up to a closing brace; `digits` are those already read, backwards. -/
def parseHexBraces (extended : Bool) (digits : List Nat) : Nat → List Char →
    Option (Nat × List Char)
  | 0, _ => none
  | fuel + 1, cs =>
    match skipVoid extended cs with
    | [] => none
    | '\x7d' :: cs =>
      if digits.isEmpty then none else some (digits.foldr (fun d n => n * 16 + d) 0, cs)
    | c :: cs => do
      let d ← hexValue? c
      parseHexBraces extended (d :: digits) fuel cs

/-- A character by its number, after the letter that stands for `count` digits. -/
def parseHex (extended : Bool) (count : Nat) (cs : List Char) : Option (Expression × List Char) :=
  match skipVoid extended cs with
  | [] => none
  | '\x7b' :: cs => do
    let (n, cs) ← parseHexBraces extended [] (cs.length + 1) cs
    return (.char ⟨← charOf? n, false⟩, cs)
  | cs => do
    let (n, cs) ← parseHexDigits extended 0 count cs
    return (.char ⟨← charOf? n, count == 2⟩, cs)

/-- The text up to a closing brace; `done` is the part already read, backwards. -/
def parseBraced (extended : Bool) (done : List Char) : Nat → List Char →
    Option (List Char × List Char)
  | 0, _ => none
  | fuel + 1, cs =>
    match skipVoid extended cs with
    | [] => none
    | '\x7d' :: cs => some (done.reverse, cs)
    | c :: cs => parseBraced extended (c :: done) fuel cs

/-- Splits a text at the first place where `mark` stands. -/
def splitAt? (mark : List Char) (done : List Char) : List Char → Option (List Char × List Char)
  | [] => none
  | c :: cs =>
    if mark.isPrefixOf (c :: cs) then some (done.reverse, (c :: cs).drop mark.length)
    else splitAt? mark (c :: done) cs

/-- The query in the braces of a property class, and whether its sign negates it. -/
def queryOf (cs : List Char) : Unicode.Query × Bool :=
  let valued (parts : List Char × List Char) : Unicode.Query :=
    .valued (String.ofList parts.1) (String.ofList parts.2)
  match splitAt? ['!', '='] [] cs with
  | some parts => (valued parts, true)
  | none =>
    match splitAt? [':'] [] cs with
    | some parts => (valued parts, false)
    | none =>
      match splitAt? ['='] [] cs with
      | some parts => (valued parts, false)
      | none => (.named (String.ofList cs), false)

/-- A property class after its letter. -/
def parseProperty (extended negated : Bool) (cs : List Char) : Option (Expression × List Char) :=
  match skipVoid extended cs with
  | [] => none
  | '\x7b' :: cs => do
    let (text, cs) ← parseBraced extended [] (cs.length + 1) cs
    let (query, opposite) := queryOf text
    return (.property query (negated != opposite), cs)
  | '\\' :: _ => none
  | c :: cs => some (.property (.named c.toString) negated, cs)

/-- The characters that have a meaning of their own somewhere in a pattern. -/
def isMeta (c : Char) : Bool :=
  "\\.+*?()|[]\x7b\x7d^$#&-~".toList.contains c

/-- A backslash can stand before the character and the character then stands for itself. -/
def isEscapable (c : Char) : Bool :=
  isMeta c || (c.toNat < 128 && !c.isAlphanum && c != '<' && c != '>')

def isEdgeNameChar (c : Char) : Bool :=
  c.isAlpha || c == '-'

/-- The letters of the name of a special word boundary. -/
def parseEdgeName (extended : Bool) (done : List Char) : Nat → List Char → List Char × List Char
  | 0, cs => (done.reverse, cs)
  | fuel + 1, cs =>
    match cs with
    | [] => (done.reverse, [])
    | c :: rest =>
      if isEdgeNameChar c then parseEdgeName extended (c :: done) fuel (skipVoid extended rest)
      else (done.reverse, cs)

/-- What follows the escape of a word boundary: it may be a name in braces. Braces that do not
start with a letter belong to a round operator. -/
def parseWordEdge (extended : Bool) (cs : List Char) : Option (Expression × List Char) :=
  match cs with
  | '\x7b' :: rest =>
    match skipVoid extended rest with
    | [] => none
    | c :: more =>
      if isEdgeNameChar c then
        match parseEdgeName extended [] (more.length + 1) (c :: more) with
        | (name, '\x7d' :: rest) =>
          match String.ofList name with
          | "start" => some (.anchor .wordStart, rest)
          | "end" => some (.anchor .wordEnd, rest)
          | "start-half" => some (.anchor .wordStartHalf, rest)
          | "end-half" => some (.anchor .wordEndHalf, rest)
          | _ => none
        | _ => none
      else some (.anchor .wordEdge, cs)
  | _ => some (.anchor .wordEdge, cs)

/-- An escape after its backslash. -/
def parseEscape (extended : Bool) (cs : List Char) : Option (Expression × List Char) :=
  let literal (n : Nat) (rest : List Char) : Option (Expression × List Char) :=
    some (.char ⟨Char.ofNat n, false⟩, rest)
  match cs with
  | [] => none
  | c :: rest =>
    if isEscapable c then some (.char ⟨c, false⟩, rest)
    else
      match c with
      | 'x' => parseHex extended 2 rest
      | 'u' => parseHex extended 4 rest
      | 'U' => parseHex extended 8 rest
      | 'p' => parseProperty extended false rest
      | 'P' => parseProperty extended true rest
      | 'd' => some (.letter .digit false, rest)
      | 'D' => some (.letter .digit true, rest)
      | 's' => some (.letter .blank false, rest)
      | 'S' => some (.letter .blank true, rest)
      | 'w' => some (.letter .word false, rest)
      | 'W' => some (.letter .word true, rest)
      | 'a' => literal 0x07 rest
      | 'f' => literal 0x0C rest
      | 't' => literal 0x09 rest
      | 'n' => literal 0x0A rest
      | 'r' => literal 0x0D rest
      | 'v' => literal 0x0B rest
      | 'A' => some (.anchor .textStart, rest)
      | 'z' => some (.anchor .textEnd, rest)
      | 'b' => parseWordEdge extended rest
      | 'B' => some (.anchor .notWordEdge, rest)
      | '<' => some (.anchor .wordStart, rest)
      | '>' => some (.anchor .wordEnd, rest)
      | _ => none

/-! ## Bracketed classes -/

/-- A class named between colons, after its opening bracket. None when there is no such class. -/
def parseAsciiClass (cs : List Char) : Option (ClassItem × List Char) :=
  match cs with
  | ':' :: cs =>
    let (negated, cs) := match cs with
      | '^' :: rest => (true, rest)
      | rest => (false, rest)
    let name := cs.takeWhile (· != ':')
    match cs.dropWhile (· != ':') with
    | ':' :: ']' :: rest =>
      (AsciiClass.ofName? (String.ofList name)).map fun kind => (.ascii kind negated, rest)
    | _ => none
  | _ => none

/-- A single member of a class, as an expression. -/
def parseMember (extended : Bool) (cs : List Char) : Option (Expression × List Char) :=
  match cs with
  | [] => none
  | '\\' :: rest => parseEscape extended rest
  | c :: rest => some (.char ⟨c, false⟩, rest)

/-- A member as an item of a class; conditions on a place are none. -/
def toClassItem? : Expression → Option ClassItem
  | .char l => some (.char l)
  | .letter kind negated => some (.letter kind negated)
  | .property query negated => some (.property query negated)
  | _ => none

/-- The hyphen before these characters stands for a range. -/
def startsRange (extended : Bool) (afterHyphen : List Char) : Bool :=
  match skipVoid extended afterHyphen with
  | ']' :: _ => false
  | '-' :: _ => false
  | _ => true

/-- A member of a class, or a range of two. -/
def parseRange (extended : Bool) (cs : List Char) : Option (ClassItem × List Char) := do
  let (first, cs) ← parseMember extended cs
  match skipVoid extended cs with
  | [] => none
  | '-' :: rest =>
    if startsRange extended rest then
      let (last, rest) ← parseMember extended (skipVoid extended rest)
      match first, last with
      | .char a, .char b => if a.char ≤ b.char then some (.range a b, rest) else none
      | _, _ => none
    else return (← toClassItem? first, '-' :: rest)
  | cs => return (← toClassItem? first, cs)

/-- The hyphens at the start of a class, and a closing bracket that is the first of all; they stand
for themselves. -/
def parseLeading (extended : Bool) (done : List ClassItem) : Nat → List Char →
    List ClassItem × List Char
  | 0, cs => (done, cs)
  | fuel + 1, cs =>
    match skipVoid extended cs with
    | '-' :: rest => parseLeading extended (.char ⟨'-', false⟩ :: done) fuel rest
    | ']' :: rest => if done.isEmpty then ([.char ⟨']', false⟩], rest) else (done, ']' :: rest)
    | cs => (done, cs)

/-- Applies an operation that is still open to the items after it. -/
def closeOperation (pending : Option (SetOperation × ClassItem)) (items : List ClassItem) :
    ClassItem :=
  let right := ClassItem.ofItems items.reverse
  match pending with
  | some (op, left) => .operation op left right
  | none => right

mutual

/-- A bracketed class after its opening bracket. -/
def parseBracket (extended : Bool) : Nat → List Char → Option ((Bool × ClassItem) × List Char)
  | 0, _ => none
  | fuel + 1, cs =>
    let (negated, cs) := match skipVoid extended cs with
      | '^' :: rest => (true, rest)
      | cs => (false, cs)
    let (items, cs) := parseLeading extended [] (cs.length + 1) cs
    match parseClassItems extended fuel none items cs with
    | some (item, rest) => some ((negated, item), rest)
    | none => none

/-- The items of a class up to its closing bracket; `items` are those since the last operation,
backwards. -/
def parseClassItems (extended : Bool) : Nat → Option (SetOperation × ClassItem) →
    List ClassItem → List Char → Option (ClassItem × List Char)
  | 0, _, _, _ => none
  | fuel + 1, pending, items, cs =>
    match skipVoid extended cs with
    | [] => none
    | ']' :: rest => some (closeOperation pending items, rest)
    | '&' :: '&' :: rest =>
      parseClassItems extended fuel (some (.inter, closeOperation pending items)) [] rest
    | '-' :: '-' :: rest =>
      parseClassItems extended fuel (some (.diff, closeOperation pending items)) [] rest
    | '~' :: '~' :: rest =>
      parseClassItems extended fuel (some (.symmDiff, closeOperation pending items)) [] rest
    | '[' :: rest =>
      match parseAsciiClass rest with
      | some (item, rest) => parseClassItems extended fuel pending (item :: items) rest
      | none =>
        match parseBracket extended fuel rest with
        | some ((negated, item), rest) =>
          parseClassItems extended fuel pending (.bracket negated item :: items) rest
        | none => none
    | cs =>
      match parseRange extended cs with
      | some (item, rest) => parseClassItems extended fuel pending (item :: items) rest
      | none => none

end

/-! ## Groups and rounds -/

/-- Switches one flag; none when the letter is no flag or the flag is switched already. -/
def setFlag? (change : FlagChange) (letter : Char) (value : Bool) : Option FlagChange :=
  let fresh (old : Option Bool) (new : FlagChange) : Option FlagChange :=
    if old.isNone then some new else none
  match letter with
  | 'i' => fresh change.caseless { change with caseless := some value }
  | 'm' => fresh change.multiLine { change with multiLine := some value }
  | 's' => fresh change.dotAll { change with dotAll := some value }
  | 'U' => fresh change.swapGreed { change with swapGreed := some value }
  | 'u' => fresh change.unicode { change with unicode := some value }
  | 'R' => fresh change.crlf { change with crlf := some value }
  | 'x' => fresh change.extended { change with extended := some value }
  | _ => none

/-- The flags of a group up to the colon or the closing parenthesis, which is left. `hyphen` tells
that a hyphen has been read, and `dangling` that it was read last. -/
def parseFlags (change : FlagChange) (hyphen dangling : Bool) :
    List Char → Option (FlagChange × List Char)
  | [] => none
  | c :: cs =>
    if c = ':' || c = ')' then if dangling then none else some (change, c :: cs)
    else if c = '-' then if hyphen then none else parseFlags change true true cs
    else
      match setFlag? change c (!hyphen) with
      | some change => parseFlags change hyphen false cs
      | none => none

/-- A character of the name of a group. -/
def isNameChar (first : Bool) (c : Char) : Bool :=
  if first then c == '_' || Unicode.isAlphabetic c
  else c == '_' || c == '.' || c == '[' || c == ']' || Unicode.isAlphabetic c || Unicode.isNumeric c

/-- The name of a group up to its closing angle bracket. -/
def parseName (cs : List Char) : Option (String × List Char) :=
  let name := cs.takeWhile (· != '>')
  match name, cs.dropWhile (· != '>') with
  | c :: more, '>' :: rest =>
    if isNameChar true c && more.all (isNameChar false) then some (String.ofList name, rest)
    else none
  | _, _ => none

/-- The decimal digits of a number. -/
def parseDigits (extended : Bool) (done : List Nat) : Nat → List Char → List Nat × List Char
  | 0, cs => (done, cs)
  | fuel + 1, cs =>
    match cs with
    | c :: rest =>
      if c.isDigit then parseDigits extended ((c.toNat - 48) :: done) fuel (skipVoid extended rest)
      else (done, cs)
    | [] => (done, [])

/-- Drops blanks, and comments in extended mode. -/
def dropBlanks (extended : Bool) (cs : List Char) : List Char :=
  skipVoid extended (cs.dropWhile Text.isBlank)

/-- A number of rounds, below 2^32, with blanks around it. -/
def parseDecimal (extended : Bool) (cs : List Char) : Option (Nat × List Char) :=
  let cs := cs.dropWhile Text.isBlank
  let (digits, rest) := parseDigits extended [] (cs.length + 1) cs
  let n := digits.foldr (fun d n => n * 10 + d) 0
  if digits.isEmpty || n ≥ Nat.pow 2 32 then none else some (n, dropBlanks extended rest)

/-- The numbers of rounds in braces, after the opening one. -/
def parseRounds (extended : Bool) (cs : List Char) : Option ((Nat × Option Nat) × List Char) := do
  let (least, cs) ← parseDecimal extended (skipVoid extended cs)
  match cs with
  | '\x7d' :: rest => some ((least, some least), rest)
  | ',' :: rest =>
    match skipVoid extended rest with
    | '\x7d' :: rest => some ((least, none), rest)
    | cs =>
      let (most, cs) ← parseDecimal extended cs
      match cs with
      | '\x7d' :: rest => if least ≤ most then some ((least, some most), rest) else none
      | _ => none
  | _ => none

/-- Puts a round operator after the last item. -/
def repeatLast (least : Nat) (most : Option Nat) (greedy : Bool) :
    List Expression → Option (List Expression)
  | [] => none
  | item :: items =>
    if item.isRepeatable then some (.rounds least most greedy item :: items) else none

/-- A question mark after a round operator makes it take as few rounds as possible. -/
def parseGreed : List Char → Bool × List Char
  | '?' :: rest => (false, rest)
  | cs => (true, cs)

/-- What opens a group: flags on their own, or the kind of a group. -/
inductive Opening
  | flags (change : FlagChange)
  | group (kind : GroupKind)

/-- The opening of a group after its parenthesis. Conditions on what stands before or after a
place are not supported, and no two groups have one name. -/
def parseOpening (extended : Bool) (names : List String) (cs : List Char) :
    Option (Opening × List Char) :=
  let named (cs : List Char) : Option (Opening × List Char) := do
    let (name, rest) ← parseName cs
    if names.contains name then none else some (.group (.capture (some name)), rest)
  match skipVoid extended cs with
  | '?' :: '=' :: _ => none
  | '?' :: '!' :: _ => none
  | '?' :: '<' :: '=' :: _ => none
  | '?' :: '<' :: '!' :: _ => none
  | '?' :: 'P' :: '<' :: rest => named rest
  | '?' :: '<' :: rest => named rest
  | '?' :: rest =>
    match parseFlags .none false false rest with
    | some (change, ':' :: more) => some (.group (.flagged change), more)
    | some (change, ')' :: more) =>
      if rest.head? == some ')' then none else some (.flags change, more)
    | _ => none
  | cs => some (.group (.capture none), cs)

/-- The names of groups after an opening. -/
def namesAfter (names : List String) : GroupKind → List String
  | .capture (some name) => name :: names
  | _ => names

/-- The mode inside a group. -/
def extendedIn (extended : Bool) : GroupKind → Bool
  | .flagged change => change.extended.getD extended
  | _ => extended

/-- The branches of an expression up to the end of the pattern or a closing parenthesis, which is
left. `branches` are those already read and `items` the items of the one being read, both
backwards; `names` are the names of groups so far. -/
def parseBranches : Nat → (extended : Bool) → (names : List String) →
    (branches items : List Expression) → List Char →
    Option (Expression × List String × List Char)
  | 0, _, _, _, _, _ => none
  | fuel + 1, extended, names, branches, items, cs =>
    let finish (rest : List Char) : Option (Expression × List String × List Char) :=
      some (ofBranches (ofItems items.reverse :: branches).reverse, names, rest)
    let rounds (least : Nat) (most : Option Nat) (rest : List Char) :=
      let (greedy, rest) := parseGreed rest
      match repeatLast least most greedy items with
      | some items => parseBranches fuel extended names branches items rest
      | none => none
    match skipVoid extended cs with
    | [] => finish []
    | ')' :: rest => finish (')' :: rest)
    | '|' :: rest =>
      parseBranches fuel extended names (ofItems items.reverse :: branches) [] rest
    | '(' :: rest =>
      match parseOpening extended names rest with
      | none => none
      | some (.flags change, rest) =>
        parseBranches fuel (change.extended.getD extended) names branches
          (.flags change :: items) rest
      | some (.group kind, rest) =>
        match parseBranches fuel (extendedIn extended kind) (namesAfter names kind) [] [] rest with
        | some (body, names, ')' :: rest) =>
          parseBranches fuel extended names branches (.group kind body :: items) rest
        | _ => none
    | '[' :: rest =>
      match parseBracket extended (2 * rest.length + 2) rest with
      | some ((negated, item), rest) =>
        parseBranches fuel extended names branches (.bracket negated item :: items) rest
      | none => none
    | '?' :: rest => rounds 0 (some 1) rest
    | '*' :: rest => rounds 0 none rest
    | '+' :: rest => rounds 1 none rest
    | '\x7b' :: rest =>
      match parseRounds extended rest with
      | some ((least, most), rest) => rounds least most (skipVoid extended rest)
      | none => none
    | '\\' :: rest =>
      match parseEscape extended rest with
      | some (item, rest) => parseBranches fuel extended names branches (item :: items) rest
      | none => none
    | '.' :: rest => parseBranches fuel extended names branches (.dot :: items) rest
    | '^' :: rest => parseBranches fuel extended names branches (.anchor .lineStart :: items) rest
    | '$' :: rest => parseBranches fuel extended names branches (.anchor .lineEnd :: items) rest
    | c :: rest => parseBranches fuel extended names branches (.char ⟨c, false⟩ :: items) rest

/-- How deeply a pattern may be nested. -/
def depthLimit : Nat := 250

/-- The expression that a pattern writes, or none when it is malformed or nested too deeply. -/
def parse? (pattern : String) : Option Expression :=
  let cs := pattern.toList
  match parseBranches (cs.length + 1) false [] [] [] cs with
  | some (e, _, []) => if e.depth ≤ depthLimit then some e else none
  | _ => none

end CodeOutline.Regex.Expression
