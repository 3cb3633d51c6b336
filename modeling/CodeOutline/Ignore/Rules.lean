import CodeOutline.Ignore.Pattern
import CodeOutline.Path
import CodeOutline.Text.Blank
import CodeOutline.Text.Utf8

/-! # Ignore files

The rules that the lines of an ignore file write, and what they say about a path. Rules are for the
paths below the directory they count from, and the last rule that fits a path decides.
-/

namespace CodeOutline.Ignore

/-- What rules say about a path. -/
inductive Verdict
  | ignored
  | kept
  deriving DecidableEq, Repr

structure Rule where
  verdict : Verdict
  /-- The rule fits directories only. -/
  directoriesOnly : Bool
  /-- For the bytes of the path. -/
  regex : Regex
  deriving Repr

/-! ## Lines -/

/-- The text without the blanks at its end, unless it ends with an escaped space. -/
def trimLine (line : List Char) : List Char :=
  match line.reverse with
  | ' ' :: '\\' :: _ => line
  | cs => (cs.dropWhile Text.isBlank).reverse

/-- The sign at the start of a line: what it says about paths, whether its pattern is anchored, and
the pattern. A backslash takes away the meaning of the sign after it. -/
def splitSign : List Char → Verdict × Bool × List Char
  | '\\' :: '!' :: cs => (.ignored, false, '!' :: cs)
  | '\\' :: '#' :: cs => (.ignored, false, '#' :: cs)
  | '!' :: '/' :: cs => (.kept, true, cs)
  | '!' :: cs => (.kept, false, cs)
  | '/' :: cs => (.ignored, true, cs)
  | cs => (.ignored, false, cs)

/-- Takes the slash off the end of a pattern for directories, and an escape before it. -/
def splitDirectoriesOnly (pattern : List Char) : Bool × List Char :=
  match pattern.reverse with
  | '/' :: '\\' :: cs => (true, cs.reverse)
  | '/' :: cs => (true, cs.reverse)
  | _ => (false, pattern)

/-- A pattern without a slash fits names at any depth, unless it is anchored. -/
def anyDepth (anchored : Bool) (pattern : List Char) : List Char :=
  if anchored || pattern.contains '/' || pattern == ['*', '*'] then pattern
  else '*' :: '*' :: '/' :: pattern

/-- A pattern that ends with two asterisks for all that is in a directory does not fit the directory
itself. -/
def belowOnly (pattern : List Char) : List Char :=
  if ['/', '*', '*'].isSuffixOf pattern then pattern ++ ['/', '*'] else pattern

/-- The rule of a line, if it has one. -/
def Rule.ofLine? (line : List Char) : Option Rule :=
  let line := if line.head? == some '#' then [] else trimLine line
  if line.isEmpty then none
  else
    let (verdict, anchored, pattern) := splitSign line
    let (directoriesOnly, pattern) := splitDirectoriesOnly pattern
    (tokens? (belowOnly (anyDepth anchored pattern))).map fun tokens =>
      ⟨verdict, directoriesOnly, patternRegex tokens⟩

/-! ## Files -/

/-- Splits bytes into lines. `line` is the line being read, backwards. A line feed ends a line, with
a carriage return before it. -/
def splitLines (line : List UInt8) : List UInt8 → List (List UInt8)
  | [] => if line.isEmpty then [] else [line.reverse]
  | b :: bs =>
    if b = 10 then
      let line := match line with
        | 13 :: line => line
        | line => line
      line.reverse :: splitLines [] bs
    else splitLines (b :: line) bs

/-- The lines of a file up to the first one that is no text. -/
def textLines (content : List UInt8) : List (List Char) :=
  ((splitLines [] content).map Utf8.text?).takeWhile Option.isSome |>.filterMap
    (·.map String.toList)

/-- Takes byte order marks off the start of the first line. -/
def dropMarks : List (List Char) → List (List Char)
  | first :: lines => first.dropWhile (· == '\uFEFF') :: lines
  | [] => []

/-- The rules that a file writes, in order. -/
def rulesOf (content : List UInt8) : List Rule :=
  (dropMarks (textLines content)).filterMap Rule.ofLine?

/-- The rules of a file, for the paths below a directory. -/
structure RuleList where
  directory : RawText
  rules : List Rule
  deriving Repr

/-- The rest of a path below a directory. A path that does not start like the directory stays as it
is. -/
def relativeTo (directory path : RawText) : RawText :=
  if directory.bytes.isPrefixOf path.bytes then
    match path.bytes.drop directory.size with
    | b :: rest => if b = Path.slash then ⟨rest⟩ else ⟨b :: rest⟩
    | [] => ⟨[]⟩
  else path

/-- What the last rule that fits a path says. -/
def RuleList.verdict? (l : RuleList) (path : RawText) (isDirectory : Bool) : Option Verdict :=
  let path := byteChars (relativeTo l.directory path).bytes
  let fits (rule : Rule) : Bool :=
    (isDirectory || !rule.directoriesOnly) && rule.regex.matchesWhole path
  (l.rules.reverse.find? fits).map (·.verdict)

/-! ## Layers -/

/-- The rules that hold in a directory. Those that come first decide. -/
structure Layers where
  /-- The ignore files of the directory and of those around it, from the inside out. -/
  nested : List RuleList
  /-- The exclude files of the same directories. -/
  excluded : List RuleList
  /-- The rules of the user for all directories. -/
  general : List RuleList
  deriving Repr

namespace Layers

def empty : Layers := ⟨[], [], []⟩

/-- The path is ignored. -/
def ignores (ls : Layers) (path : RawText) (isDirectory : Bool) : Bool :=
  (ls.nested ++ ls.excluded ++ ls.general).findSome? (·.verdict? path isDirectory)
    == some .ignored

end Layers

end CodeOutline.Ignore
