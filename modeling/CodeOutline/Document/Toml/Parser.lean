import CodeOutline.Document.Toml.Scalar
import CodeOutline.Document.Toml.Table

/-! # Reading TOML

A reader of TOML documents over lists of characters. Every step returns what it read and the rest
of the document, or none when the document is malformed.
-/

namespace CodeOutline.Document.Toml

/-- Keys have fewer parts, and values are less deeply nested. -/
def depthLimit : Nat := 80

/-- Drops a comment, if one begins here. -/
def skipComment (cs : List Char) : List Char :=
  match cs with
  | '#' :: rest => rest.dropWhile isPlain
  | _ => cs

/-- The rest after the end of a line, which may have spaces and a comment before it. -/
def endLine? (cs : List Char) : Option (List Char) :=
  match skipComment (skipSpace cs) with
  | [] => some []
  | rest => newline? rest

/-- Drops spaces, line ends and comments; a comment has to end with a line end. -/
def skipBlankLines : Nat → List Char → Option (List Char)
  | 0, _ => none
  | fuel + 1, cs =>
    match skipSpace cs with
    | '#' :: rest =>
      match newline? (rest.dropWhile isPlain) with
      | some rest => skipBlankLines fuel rest
      | none => none
    | '\n' :: rest => skipBlankLines fuel rest
    | '\r' :: rest =>
      match newline? ('\r' :: rest) with
      | some rest => skipBlankLines fuel rest
      | none => none
    | rest => some rest

/-! ## Keys -/

def isBareKeyChar (c : Char) : Bool :=
  c.isAlphanum || c = '-' || c = '_'

/-- A part of a key: bare, or a text on one line. -/
def parseKeyPart (cs : List Char) : Option (String × List Char) :=
  match cs with
  | '"' :: rest => parseBasic [] (rest.length + 1) rest
  | '\'' :: rest => parseLiteral rest
  | _ =>
    let name := cs.takeWhile isBareKeyChar
    if name.isEmpty then none else some (String.ofList name, cs.dropWhile isBareKeyChar)

/-- The parts of a key, with points between them and spaces around them. -/
def parseKeyFrom (done : List String) : Nat → List Char → Option (List String × List Char)
  | 0, _ => none
  | fuel + 1, cs =>
    match parseKeyPart (skipSpace cs) with
    | none => none
    | some (part, rest) =>
      match skipSpace rest with
      | '.' :: rest => parseKeyFrom (part :: done) fuel rest
      | rest => some ((part :: done).reverse, rest)

def parseKey (cs : List Char) : Option (List String × List Char) := do
  let (key, rest) ← parseKeyFrom [] (cs.length + 1) cs
  if key.length < depthLimit then return (key, rest) else none

/-! ## Values -/

mutual

/-- A value; `depth` counts the lists and tables it stands in. -/
def parseValue : Nat → (depth : Nat) → List Char → Option (Value × List Char)
  | 0, _, _ => none
  | fuel + 1, depth, cs =>
    match cs with
    | [] => none
    | '[' :: rest =>
      if depth + 1 < depthLimit then parseItems fuel (depth + 1) [] rest else none
    | '\x7b' :: rest =>
      if depth + 1 < depthLimit then
        match skipSpace rest with
        | '\x7d' :: rest => some (.table [], rest)
        | _ => parsePairs fuel (depth + 1) [] rest
      else none
    | 't' :: 'r' :: 'u' :: 'e' :: rest => some (.bool true, rest)
    | 'f' :: 'a' :: 'l' :: 's' :: 'e' :: rest => some (.bool false, rest)
    | c :: rest =>
      if c = '"' || c = '\'' then (parseText (c :: rest)).map fun (s, rest) => (.text s, rest)
      else parseQuantity (c :: rest)

/-- The items of a list up to its end, with a comma after each but the last, and after the last or
not; `done` are those already read, backwards. -/
def parseItems : Nat → (depth : Nat) → List Value → List Char → Option (Value × List Char)
  | 0, _, _, _ => none
  | fuel + 1, depth, done, cs =>
    match skipBlankLines (cs.length + 1) cs with
    | none => none
    | some (']' :: rest) => some (.list done.reverse, rest)
    | some cs =>
      match parseValue fuel depth cs with
      | none => none
      | some (item, rest) =>
        match skipBlankLines (rest.length + 1) rest with
        | some (',' :: rest) => parseItems fuel depth (item :: done) rest
        | some (']' :: rest) => some (.list (item :: done).reverse, rest)
        | _ => none

/-- The pairs of a table on one line up to its end, with commas between them. -/
def parsePairs : Nat → (depth : Nat) → Entries → List Char → Option (Value × List Char)
  | 0, _, _, _ => none
  | fuel + 1, depth, es, cs =>
    match parseKey cs with
    | some (key, '=' :: rest) =>
      match parseValue fuel depth (skipSpace rest) with
      | none => none
      | some (value, rest) =>
        match es.insertKey value key true with
        | none => none
        | some es =>
          match skipSpace rest with
          | ',' :: rest => parsePairs fuel depth es rest
          | '\x7d' :: rest => some (.table (entriesToValues es), rest)
          | _ => none
    | _ => none

end

/-! ## Documents -/

/-- A header after its opening brackets, `doubled` or not: its path, and the rest after its line. -/
def parseHeader (doubled : Bool) (cs : List Char) : Option (List String × List Char) := do
  let (path, rest) ← parseKey cs
  match doubled, rest with
  | true, ']' :: ']' :: rest => return (path, ← endLine? rest)
  | false, ']' :: rest => return (path, ← endLine? rest)
  | _, _ => none

/-- A key with its value, up to the end of the line. -/
def parsePair (cs : List Char) : Option ((List String × Value) × List Char) := do
  let (key, rest) ← parseKey cs
  let rest ← expect? '=' rest
  let rest := skipSpace rest
  let (value, rest) ← parseValue (2 * rest.length + 2) 0 rest
  return ((key, value), ← endLine? rest)

/-- The lines of a document, added to a draft. -/
def parseLines : Nat → Draft → List Char → Option Draft
  | 0, _, _ => none
  | fuel + 1, d, cs =>
    match skipSpace cs with
    | [] => some d
    | '#' :: rest =>
      match endLine? ('#' :: rest) with
      | some rest => parseLines fuel d rest
      | none => none
    | '\n' :: rest => parseLines fuel d rest
    | '\r' :: rest =>
      match newline? ('\r' :: rest) with
      | some rest => parseLines fuel d rest
      | none => none
    | '[' :: '[' :: rest =>
      match parseHeader true rest with
      | none => none
      | some (path, rest) =>
        match d.beginRepeated path with
        | some d => parseLines fuel d rest
        | none => none
    | '[' :: rest =>
      match parseHeader false rest with
      | none => none
      | some (path, rest) =>
        match d.beginTable path with
        | some d => parseLines fuel d rest
        | none => none
    | cs =>
      match parsePair cs with
      | none => none
      | some ((key, value), rest) =>
        match d.add key value with
        | some d => parseLines fuel d rest
        | none => none

/-- The table that a document writes, or none when it is malformed. A byte order mark before it is
dropped. -/
def parse? (s : String) : Option Value :=
  let cs := match s.toList with
    | '\ufeff' :: cs => cs
    | cs => cs
  ((parseLines (cs.length + 1) .empty cs).bind Draft.finish).map fun es =>
    .table (entriesToValues es)

end CodeOutline.Document.Toml
