import CodeOutline.Text.Raw

/-! # Paths

Paths are bytes in which slashes separate names. Nothing here looks at a file system.
-/

namespace CodeOutline.Path

/-- The byte that separates names. -/
def slash : UInt8 := 0x2F

/-- The byte that an extension starts with. -/
def point : UInt8 := 0x2E

/-- The bytes between slashes. There is one more of these lists than there are slashes. -/
def splitSlashes : List UInt8 → List (List UInt8)
  | [] => [[]]
  | b :: bs =>
    if b = slash then [] :: splitSlashes bs
    else
      match splitSlashes bs with
      | first :: others => (b :: first) :: others
      | [] => [[b]]

/-- The parts of a path, the empty ones included. -/
def parts (p : RawText) : List RawText :=
  (splitSlashes p.bytes).map RawText.mk

/-- A path with these parts. -/
def ofParts (ps : List RawText) : RawText :=
  ⟨[slash].intercalate (ps.map (·.bytes))⟩

/-- An absolute path with these names. -/
def ofNames (names : List RawText) : RawText :=
  ⟨slash :: (ofParts names).bytes⟩

def isAbsolute (p : RawText) : Bool :=
  p.bytes.head? == some slash

/-- The path that `q` names as seen from `p`: an absolute `q` stands for itself. -/
def join (p q : RawText) : RawText :=
  if isAbsolute q || p.isEmpty then q
  else if p.bytes.getLast? == some slash then p ++ q
  else ⟨p.bytes ++ slash :: q.bytes⟩

/-- Takes one part of a path from a place that is given by names. An empty part and a point stay
there, and two points lead up, but not out of the top. -/
def enter (names : List RawText) (part : RawText) : List RawText :=
  if part = "" ∨ part = "." then names
  else if part = ".." then names.dropLast
  else names ++ [part]

/-- The names on the way to a path from a working directory, without a look at links. -/
def names (cwd p : RawText) : List RawText :=
  (parts (join cwd p)).foldl enter []

/-- The absolute path in which no part is empty, a point or two points. -/
def absolute (cwd p : RawText) : RawText :=
  ofNames (names cwd p)

/-- An empty part and a point, which lead nowhere. -/
def isIdle (part : RawText) : Bool :=
  part = "" || part = "."

/-- What is left of the parts of a path after those of another one, which has no idle parts. -/
def dropParts? : List RawText → List RawText → Option (List RawText)
  | [], parts => some (parts.dropWhile isIdle)
  | first :: others, parts =>
    match parts.dropWhile isIdle with
    | [] => none
    | part :: rest => if part = first then dropParts? others rest else none

/-- What is left of an absolute path after another one that it starts with, part by part. Idle parts
make no difference, and none stands at an end of what is left. -/
def stripPrefix? (base p : RawText) : Option RawText :=
  if isAbsolute base && isAbsolute p then
    (dropParts? ((parts base).filter (!isIdle ·)) (parts p)).map fun rest =>
      ofParts (rest.reverse.dropWhile isIdle).reverse
  else none

/-- The extension of a file name, with its point: what starts with the last point, unless that is
the first byte of the name. An extension is a text. -/
def extension? (name : RawText) : Option String :=
  let backwards := name.bytes.reverse
  match backwards.dropWhile (· != point) with
  | _ :: _ :: _ => RawText.text? ⟨point :: (backwards.takeWhile (· != point)).reverse⟩
  | _ => none

end CodeOutline.Path
