import CodeOutline.Document.Value

/-! # Scalars in TOML

Texts, numbers, dates and times. Every step returns what it read and the rest of the document.
-/

namespace CodeOutline.Document.Toml

def isSpace (c : Char) : Bool := c = ' ' || c = '\t'

def skipSpace (cs : List Char) : List Char := cs.dropWhile isSpace

/-- The rest after a line end: a line feed, with a carriage return before it or not. -/
def newline? : List Char → Option (List Char)
  | '\n' :: rest => some rest
  | '\r' :: '\n' :: rest => some rest
  | _ => none

/-- Characters that may stand in comments and texts: all but controls, of which a tab may. -/
def isPlain (c : Char) : Bool :=
  c = '\t' || (0x20 ≤ c.toNat && c.toNat ≠ 0x7F)

/-! ## Texts -/

def hexValue? (c : Char) : Option Nat :=
  if '0' ≤ c ∧ c ≤ '9' then some (c.toNat - 48)
  else if 'a' ≤ c ∧ c ≤ 'f' then some (c.toNat - 87)
  else if 'A' ≤ c ∧ c ≤ 'F' then some (c.toNat - 55)
  else none

/-- A character by the `count` hexadecimal digits of its number. -/
def parseCode (value : Nat) : Nat → List Char → Option (Char × List Char)
  | 0, cs => if value.isValidChar then some (Char.ofNat value, cs) else none
  | _ + 1, [] => none
  | count + 1, c :: cs => do
    let d ← hexValue? c
    parseCode (value * 16 + d) count cs

/-- An escape after its backslash. -/
def parseEscape : List Char → Option (Char × List Char)
  | 'b' :: rest => some (Char.ofNat 8, rest)
  | 't' :: rest => some ('\t', rest)
  | 'n' :: rest => some ('\n', rest)
  | 'f' :: rest => some (Char.ofNat 12, rest)
  | 'r' :: rest => some ('\r', rest)
  | '"' :: rest => some ('"', rest)
  | '\\' :: rest => some ('\\', rest)
  | 'u' :: rest => parseCode 0 4 rest
  | 'U' :: rest => parseCode 0 8 rest
  | _ => none

/-- A text on one line, after its opening quote. -/
def parseBasic (done : List Char) : Nat → List Char → Option (String × List Char)
  | 0, _ => none
  | _ + 1, [] => none
  | fuel + 1, c :: cs =>
    if c = '"' then some (String.ofList done.reverse, cs)
    else if c = '\\' then
      match parseEscape cs with
      | some (d, rest) => parseBasic (d :: done) fuel rest
      | none => none
    else if isPlain c then parseBasic (c :: done) fuel cs
    else none

/-- A text without escapes on one line, after its opening quote. -/
def parseLiteral (cs : List Char) : Option (String × List Char) :=
  let text := cs.takeWhile fun c => c != '\'' && isPlain c
  match cs.drop text.length with
  | '\'' :: rest => some (String.ofList text, rest)
  | _ => none

/-- Drops spaces and line ends. -/
def skipLines : Nat → List Char → List Char
  | 0, cs => cs
  | fuel + 1, cs =>
    match newline? (skipSpace cs) with
    | some rest => skipLines fuel rest
    | none => skipSpace cs

/-- The end of a text of several lines at a run of quotes, if there are three of them: two more may
belong to the text. -/
def closing? (quote : Char) (cs : List Char) : Option (List Char × List Char) :=
  let run := (cs.takeWhile (· == quote)).length
  if run < 3 then none
  else some (List.replicate (min (run - 3) 2) quote, cs.drop (min run 5))

/-- A text of several lines, after its opening quotes. A backslash at the end of a line takes the
line end and all blanks after it away. -/
def parseMultiBasic (done : List Char) : Nat → List Char → Option (String × List Char)
  | 0, _ => none
  | fuel + 1, cs =>
    match closing? '"' cs with
    | some (quotes, rest) => some (String.ofList (done.reverse ++ quotes), rest)
    | none =>
      match newline? cs with
      | some rest => parseMultiBasic ('\n' :: done) fuel rest
      | none =>
        match cs with
        | [] => none
        | '\\' :: rest =>
          match newline? (skipSpace rest) with
          | some after => parseMultiBasic done fuel (skipLines (after.length + 1) after)
          | none =>
            match parseEscape rest with
            | some (c, rest) => parseMultiBasic (c :: done) fuel rest
            | none => none
        | c :: rest => if isPlain c then parseMultiBasic (c :: done) fuel rest else none

/-- A text of several lines without escapes, after its opening quotes. -/
def parseMultiLiteral (done : List Char) : Nat → List Char → Option (String × List Char)
  | 0, _ => none
  | fuel + 1, cs =>
    match closing? '\'' cs with
    | some (quotes, rest) => some (String.ofList (done.reverse ++ quotes), rest)
    | none =>
      match newline? cs with
      | some rest => parseMultiLiteral ('\n' :: done) fuel rest
      | none =>
        match cs with
        | [] => none
        | c :: rest => if isPlain c then parseMultiLiteral (c :: done) fuel rest else none

/-- Drops a line end right after opening quotes. -/
def dropFirstNewline (cs : List Char) : List Char := (newline? cs).getD cs

/-- A text, with its quotes. -/
def parseText (cs : List Char) : Option (String × List Char) :=
  let fuel := cs.length + 1
  match cs with
  | '"' :: '"' :: '"' :: rest => parseMultiBasic [] fuel (dropFirstNewline rest)
  | '"' :: rest => parseBasic [] fuel rest
  | '\'' :: '\'' :: '\'' :: rest => parseMultiLiteral [] fuel (dropFirstNewline rest)
  | '\'' :: rest => parseLiteral rest
  | _ => none

/-! ## Numbers -/

/-- Digits with single underscores between them. None when there is no digit, or an underscore that
no digit follows. -/
def parseDigits (digit? : Char → Option Nat) (done : List Nat) : List Char →
    Option (List Nat × List Char)
  | [] => if done.isEmpty then none else some (done.reverse, [])
  | '_' :: c :: cs =>
    if done.isEmpty then none
    else
      match digit? c with
      | some d => parseDigits digit? (d :: done) cs
      | none => none
  | c :: cs =>
    match digit? c with
    | some d => parseDigits digit? (d :: done) cs
    | none =>
      if done.isEmpty || c = '_' then none else some (done.reverse, c :: cs)

def digitBelow? (base : Nat) (c : Char) : Option Nat :=
  match hexValue? c with
  | some d => if d < base then some d else none
  | none => none

def numberOf (base : Nat) (ds : List Nat) : Nat := ds.foldl (fun n d => n * base + d) 0

/-- A whole number, which has to fit in 64 bits with a sign. -/
def integer? (n : Int) : Option Value :=
  if -9223372036854775808 ≤ n && n ≤ 9223372036854775807 then some (.integer n) else none

/-- A number in another base, after its two-character mark. -/
def parseInBase (base : Nat) (cs : List Char) : Option (Value × List Char) := do
  let (ds, rest) ← parseDigits (digitBelow? base) [] cs
  return (← integer? (numberOf base ds), rest)

/-- The decimal digits before a point or an exponent: no zero stands before another digit. -/
def parseWhole (cs : List Char) : Option (List Nat × List Char) :=
  match cs with
  | '0' :: rest => some ([0], rest)
  | _ => parseDigits (digitBelow? 10) [] cs

/-- The digits of a fraction after a point, if there is one. -/
def parseFraction (cs : List Char) : Option (List Nat × List Char) :=
  match cs with
  | '.' :: rest => parseDigits (digitBelow? 10) [] rest
  | _ => some ([], cs)

/-- The exponent of a number, if there is one: whether it is negative, and its digits. -/
def parseExponent (cs : List Char) : Option ((Bool × List Nat) × List Char) :=
  match cs with
  | e :: rest =>
    if e = 'e' || e = 'E' then
      let (negative, rest) := match rest with
        | '+' :: r => (false, r)
        | '-' :: r => (true, r)
        | r => (false, r)
      (parseDigits (digitBelow? 10) [] rest).map fun (ds, rest) => ((negative, ds), rest)
    else some ((false, []), cs)
  | [] => some ((false, []), [])

/-- The number of `digits`, with the point `places` digits before their end, times a power of ten,
is too large for a floating-point number of 64 bits. -/
def overflows (digits : List Nat) (places : Nat) (negative : Bool) (exponent : List Nat) : Bool :=
  let digits := digits.dropWhile (· == 0)
  let power : Int := (if negative then -1 else 1) * numberOf 10 exponent - places
  let top : Int := digits.length + power
  if digits.isEmpty || top < 309 then false
  else if top > 309 then true
  else
    let n := numberOf 10 digits
    let limit := Nat.pow 2 1024 - Nat.pow 2 970
    if power ≥ 0 then n * Nat.pow 10 power.toNat ≥ limit else n ≥ limit * Nat.pow 10 (-power).toNat

/-- A number or one of the two words for numbers that are not finite, after its sign. -/
def parseUnsigned (negative : Bool) (cs : List Char) : Option (Value × List Char) :=
  let sign := if negative then ['-'] else []
  match cs with
  | 'i' :: 'n' :: 'f' :: rest => some (.real (String.ofList (sign ++ ['i', 'n', 'f'])), rest)
  | 'n' :: 'a' :: 'n' :: rest => some (.real (String.ofList (sign ++ ['n', 'a', 'n'])), rest)
  | _ => do
    let (whole, afterWhole) ← parseWhole cs
    let (fraction, rest) ← parseFraction afterWhole
    let ((down, exponent), rest) ← parseExponent rest
    if fraction.isEmpty && exponent.isEmpty then
      let n : Int := numberOf 10 whole
      return (← integer? (if negative then -n else n), rest)
    else if overflows (whole ++ fraction) fraction.length down exponent then none
    else return (.real (String.ofList (sign ++ cs.take (cs.length - rest.length))), rest)

/-- A number. Only one without a sign can be in another base. -/
def parseNumber (cs : List Char) : Option (Value × List Char) :=
  match cs with
  | '0' :: 'x' :: rest => parseInBase 16 rest
  | '0' :: 'o' :: rest => parseInBase 8 rest
  | '0' :: 'b' :: rest => parseInBase 2 rest
  | '+' :: rest => parseUnsigned false rest
  | '-' :: rest => parseUnsigned true rest
  | _ => parseUnsigned false cs

/-! ## Dates and times -/

/-- What an attempt to read something comes to: it is not there, it is there but malformed, or it
is read and this is the rest. -/
inductive Attempt
  | absent
  | malformed
  | read (rest : List Char)

/-- The number of `count` decimal digits. -/
def fixedDigits? (value : Nat) : Nat → List Char → Option (Nat × List Char)
  | 0, cs => some (value, cs)
  | _ + 1, [] => none
  | count + 1, c :: cs => if c.isDigit then fixedDigits? (value * 10 + (c.toNat - 48)) count cs else none

/-- Two digits for a number between two bounds. -/
def pair? (low high : Nat) (cs : List Char) : Option (List Char) :=
  match fixedDigits? 0 2 cs with
  | some (n, rest) => if low ≤ n && n ≤ high then some rest else none
  | none => none

/-- The rest after a character that has to be there. -/
def expect? (c : Char) (cs : List Char) : Option (List Char) :=
  match cs with
  | d :: rest => if c = d then some rest else none
  | [] => none

/-- Minutes and seconds, with a fraction of seconds or without, after the hour and its colon. -/
def parseMinutes (cs : List Char) : Option (List Char) := do
  let rest ← pair? 0 59 cs
  let rest ← expect? ':' rest
  let rest ← pair? 0 60 rest
  match rest with
  | '.' :: more => return if more.head?.any Char.isDigit then more.dropWhile Char.isDigit else rest
  | _ => return rest

/-- A time of day. Once there is an hour with a colon the rest has to follow. -/
def parseTime (cs : List Char) : Attempt :=
  match pair? 0 23 cs with
  | some (':' :: rest) =>
    match parseMinutes rest with
    | some rest => .read rest
    | none => .malformed
  | _ => .absent

/-- A distance from universal time. Once there is a sign the rest has to follow. -/
def parseOffset (cs : List Char) : Attempt :=
  let signed (rest : List Char) : Attempt :=
    match (pair? 0 23 rest).bind (expect? ':') |>.bind (pair? 0 59) with
    | some rest => .read rest
    | none => .malformed
  match cs with
  | 'Z' :: rest => .read rest
  | 'z' :: rest => .read rest
  | '+' :: rest => signed rest
  | '-' :: rest => signed rest
  | _ => .absent

def daysIn (year month : Nat) : Nat :=
  match month with
  | 2 => if year % 4 == 0 && (year % 100 != 0 || year % 400 == 0) then 29 else 28
  | 4 => 30
  | 6 => 30
  | 9 => 30
  | 11 => 30
  | _ => 31

/-- Month and day after a year and its hyphen. -/
def parseMonthDay (year : Nat) (cs : List Char) : Option (List Char) := do
  let (month, rest) ← fixedDigits? 0 2 cs
  guard (1 ≤ month && month ≤ 12)
  let rest ← expect? '-' rest
  let (day, rest) ← fixedDigits? 0 2 rest
  guard (1 ≤ day && day ≤ daysIn year month)
  return rest

/-- The time of day after a date, and its distance from universal time, if they are there. -/
def parseTimeOfDate (cs : List Char) : Attempt :=
  match cs with
  | c :: rest =>
    if c = 'T' || c = 't' || c = ' ' then
      match parseTime rest with
      | .absent => .read cs
      | .malformed => .malformed
      | .read rest =>
        match parseOffset rest with
        | .absent => .read rest
        | attempt => attempt
    else .read cs
  | [] => .read []

/-- A date with a time or without, or a time. -/
def parseMoment (cs : List Char) : Attempt :=
  match fixedDigits? 0 4 cs with
  | some (year, '-' :: rest) =>
    match parseMonthDay year rest with
    | some rest => parseTimeOfDate rest
    | none => .malformed
  | _ => parseTime cs

/-- A date, a time or a number. -/
def parseQuantity (cs : List Char) : Option (Value × List Char) :=
  match parseMoment cs with
  | .read rest => some (.moment (String.ofList (cs.take (cs.length - rest.length))), rest)
  | .malformed => none
  | .absent => parseNumber cs

end CodeOutline.Document.Toml
