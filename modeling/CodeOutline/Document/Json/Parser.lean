import CodeOutline.Document.Value

/-! # Reading JSON

A reader of JSON texts over lists of characters. Every step returns what it read and the rest of
the text. The fuel of the value reader is set by `parse?` from the length of the text: a value
takes at least one character and at most two steps before it.
-/

namespace CodeOutline.Document.Json

def isSpace (c : Char) : Bool :=
  c = ' ' || c = '\n' || c = '\r' || c = '\t'

def skipSpace (cs : List Char) : List Char :=
  cs.dropWhile isSpace

def hexValue? (c : Char) : Option Nat :=
  if '0' ≤ c ∧ c ≤ '9' then some (c.toNat - 48)
  else if 'a' ≤ c ∧ c ≤ 'f' then some (c.toNat - 87)
  else if 'A' ≤ c ∧ c ≤ 'F' then some (c.toNat - 55)
  else none

/-- The number that four hexadecimal digits write. -/
def hexQuad? (a b c d : Char) : Option Nat := do
  let a ← hexValue? a
  let b ← hexValue? b
  let c ← hexValue? c
  let d ← hexValue? d
  return ((a * 16 + b) * 16 + c) * 16 + d

def isHighSurrogate (n : Nat) : Bool := 0xD800 ≤ n && n < 0xDC00

def isLowSurrogate (n : Nat) : Bool := 0xDC00 ≤ n && n < 0xE000

/-- The character of a pair of surrogates. -/
def ofSurrogates (high low : Nat) : Char :=
  Char.ofNat (0x10000 + (high - 0xD800) * 0x400 + (low - 0xDC00))

/-- The character that a one-letter escape stands for. -/
def unescape? (c : Char) : Option Char :=
  match c with
  | '"' => some '"'
  | '\\' => some '\\'
  | '/' => some '/'
  | 'b' => some (Char.ofNat 8)
  | 'f' => some (Char.ofNat 12)
  | 'n' => some '\n'
  | 'r' => some '\r'
  | 't' => some '\t'
  | _ => none

/-- The rest of a text after its opening quote; `done` is the part already read, backwards. -/
def parseText (done : List Char) : List Char → Option (String × List Char)
  | [] => none
  | '"' :: rest => some (String.ofList done.reverse, rest)
  | '\\' :: 'u' :: a :: b :: c :: d :: rest =>
    match hexQuad? a b c d with
    | none => none
    | some x =>
      if isHighSurrogate x then
        match rest with
        | '\\' :: 'u' :: e :: f :: g :: h :: rest =>
          match hexQuad? e f g h with
          | none => none
          | some y => if isLowSurrogate y then parseText (ofSurrogates x y :: done) rest else none
        | _ => none
      else if isLowSurrogate x then none
      else parseText (Char.ofNat x :: done) rest
  | '\\' :: c :: rest =>
    match unescape? c with
    | some c => parseText (c :: done) rest
    | none => none
  | c :: rest => if c.toNat < 32 || c = '\\' then none else parseText (c :: done) rest

def digitsValue (ds : List Char) : Nat :=
  ds.foldl (fun n d => n * 10 + (d.toNat - 48)) 0

def isDigit (c : Char) : Bool := '0' ≤ c && c ≤ '9'

/-- The fraction of a number, if there is one; none when a point has no digit after it. -/
def parseFraction (cs : List Char) : Option (List Char × List Char) :=
  match cs with
  | '.' :: rest =>
    let ds := rest.takeWhile isDigit
    if ds.isEmpty then none else some ('.' :: ds, rest.dropWhile isDigit)
  | _ => some ([], cs)

/-- The exponent of a number, if there is one. -/
def parseExponent (cs : List Char) : Option (List Char × List Char) :=
  match cs with
  | e :: rest =>
    if e = 'e' || e = 'E' then
      let (sign, rest) := match rest with
        | '+' :: r => (['+'], r)
        | '-' :: r => (['-'], r)
        | r => ([], r)
      let ds := rest.takeWhile isDigit
      if ds.isEmpty then none else some (e :: (sign ++ ds), rest.dropWhile isDigit)
    else some ([], cs)
  | [] => some ([], [])

/-- A number without its sign. A number with a fraction or an exponent, negative zero, and a whole
number beyond 64 bits are reals. -/
def parseMagnitude (negative : Bool) (cs : List Char) : Option (Value × List Char) :=
  let ds := cs.takeWhile isDigit
  let rest := cs.dropWhile isDigit
  if ds.isEmpty || (ds.length > 1 && ds.head? == some '0') then none
  else
    match parseFraction rest with
    | none => none
    | some (fraction, rest) =>
      match parseExponent rest with
      | none => none
      | some (exponent, rest) =>
        let n : Int := if negative then -(digitsValue ds : Int) else digitsValue ds
        if fraction.isEmpty && exponent.isEmpty && !(negative && n == 0) && Value.fitsInteger n then
          some (.integer n, rest)
        else
          let sign := if negative then ['-'] else []
          some (.real (String.ofList (sign ++ ds ++ fraction ++ exponent)), rest)

def parseNumber (cs : List Char) : Option (Value × List Char) :=
  match cs with
  | '-' :: rest => parseMagnitude true rest
  | _ => parseMagnitude false cs

mutual

/-- A value at the start of the text. -/
def parseValue : Nat → List Char → Option (Value × List Char)
  | 0, _ => none
  | fuel + 1, cs =>
    match cs with
    | '"' :: rest =>
      match parseText [] rest with
      | some (s, rest) => some (.text s, rest)
      | none => none
    | '[' :: rest =>
      match skipSpace rest with
      | ']' :: rest => some (.list [], rest)
      | rest => parseItems fuel [] rest
    | '\x7b' :: rest =>
      match skipSpace rest with
      | '\x7d' :: rest => some (.table [], rest)
      | rest => parseEntries fuel [] rest
    | 't' :: 'r' :: 'u' :: 'e' :: rest => some (.bool true, rest)
    | 'f' :: 'a' :: 'l' :: 's' :: 'e' :: rest => some (.bool false, rest)
    | 'n' :: 'u' :: 'l' :: 'l' :: rest => some (.null, rest)
    | _ => parseNumber cs

/-- The items of a list up to its end; `done` are those already read, backwards. -/
def parseItems : Nat → List Value → List Char → Option (Value × List Char)
  | 0, _, _ => none
  | fuel + 1, done, cs =>
    match parseValue fuel cs with
    | none => none
    | some (item, rest) =>
      match skipSpace rest with
      | ',' :: rest => parseItems fuel (item :: done) (skipSpace rest)
      | ']' :: rest => some (.list (item :: done).reverse, rest)
      | _ => none

/-- The entries of a table up to its end; `done` are those already read, backwards. -/
def parseEntries : Nat → List (String × Value) → List Char → Option (Value × List Char)
  | 0, _, _ => none
  | fuel + 1, done, cs =>
    match cs with
    | '"' :: rest =>
      match parseText [] rest with
      | none => none
      | some (key, rest) =>
        match skipSpace rest with
        | ':' :: rest =>
          match parseValue fuel (skipSpace rest) with
          | none => none
          | some (value, rest) =>
            match skipSpace rest with
            | ',' :: rest => parseEntries fuel ((key, value) :: done) (skipSpace rest)
            | '\x7d' :: rest => some (.table ((key, value) :: done).reverse, rest)
            | _ => none
        | _ => none
    | _ => none

end

/-- The value that a text writes, or none when it is not a JSON text. -/
def parseChars? (cs : List Char) : Option Value :=
  match parseValue (2 * cs.length + 2) (skipSpace cs) with
  | some (v, rest) => if (skipSpace rest).isEmpty then some v else none
  | none => none

/-- The value that a text writes, or none when it is not a JSON text. -/
def parse? (s : String) : Option Value :=
  parseChars? s.toList

end CodeOutline.Document.Json
