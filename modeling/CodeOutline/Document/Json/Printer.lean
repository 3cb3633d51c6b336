import CodeOutline.Document.Value

/-! # Writing JSON

Two layouts of one text: on one line without spaces, and with every item on a line of its own,
indented by two spaces a level.
-/

namespace CodeOutline.Document.Json

def hexDigit (n : Nat) : Char :=
  if n < 10 then Char.ofNat (48 + n) else Char.ofNat (87 + n)

/-- The written form of one character of a text: quotes, backslashes and the characters below
U+0020 are escaped. -/
def escapeChar (c : Char) : List Char :=
  if c = '"' then ['\\', '"']
  else if c = '\\' then ['\\', '\\']
  else if c = '\n' then ['\\', 'n']
  else if c = '\r' then ['\\', 'r']
  else if c = '\t' then ['\\', 't']
  else if c = Char.ofNat 8 then ['\\', 'b']
  else if c = Char.ofNat 12 then ['\\', 'f']
  else if c.toNat < 32 then
    ['\\', 'u', '0', '0', hexDigit (c.toNat / 16), hexDigit (c.toNat % 16)]
  else [c]

def quote (s : String) : List Char :=
  '"' :: (s.toList.flatMap escapeChar ++ ['"'])

/-- A scalar, which both layouts write alike. Lists and tables are not scalars. -/
def scalar : Value → List Char
  | .null => "null".toList
  | .bool true => "true".toList
  | .bool false => "false".toList
  | .integer n => (toString n).toList
  | .real written => written.toList
  | .moment written => quote written
  | .text s => quote s
  | .list _ => []
  | .table _ => []

/-- A line end and the indentation of a level. -/
def newline (level : Nat) : List Char :=
  '\n' :: List.replicate (2 * level) ' '

mutual

/-- The indented layout of a value at a level. -/
def indented (level : Nat) : Value → List Char
  | .list [] => ['[', ']']
  | .list (item :: items) =>
    '[' :: (newline (level + 1) ++ indented (level + 1) item ++ indentedItems level items)
  | .table [] => ['\x7b', '\x7d']
  | .table ((key, value) :: entries) =>
    '\x7b' :: (newline (level + 1) ++ quote key ++ ':' :: ' ' :: indented (level + 1) value ++
      indentedEntries level entries)
  | v => scalar v

/-- The items of a list after the first, and its end. -/
def indentedItems (level : Nat) : List Value → List Char
  | [] => newline level ++ [']']
  | item :: items =>
    ',' :: (newline (level + 1) ++ indented (level + 1) item ++ indentedItems level items)

/-- The entries of a table after the first, and its end. -/
def indentedEntries (level : Nat) : List (String × Value) → List Char
  | [] => newline level ++ ['\x7d']
  | (key, value) :: entries =>
    ',' :: (newline (level + 1) ++ quote key ++ ':' :: ' ' :: indented (level + 1) value ++
      indentedEntries level entries)

end

mutual

/-- The layout of a value on one line. -/
def compact : Value → List Char
  | .list [] => ['[', ']']
  | .list (item :: items) => '[' :: (compact item ++ compactItems items)
  | .table [] => ['\x7b', '\x7d']
  | .table ((key, value) :: entries) =>
    '\x7b' :: (quote key ++ ':' :: compact value ++ compactEntries entries)
  | v => scalar v

def compactItems : List Value → List Char
  | [] => [']']
  | item :: items => ',' :: (compact item ++ compactItems items)

def compactEntries : List (String × Value) → List Char
  | [] => ['\x7d']
  | (key, value) :: entries => ',' :: (quote key ++ ':' :: compact value ++ compactEntries entries)

end

/-- The indented text of a value. -/
def prettyText (v : Value) : String :=
  String.ofList (indented 0 v)

/-- The text of a value on one line. -/
def compactText (v : Value) : String :=
  String.ofList (compact v)

end CodeOutline.Document.Json
