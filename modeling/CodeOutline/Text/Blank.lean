/-! # Blanks

The characters with the Unicode property `White_Space`, the words of a text, and its collapsed
form: the words with one space between two of them.
-/

namespace CodeOutline.Text

/-- The twenty-five characters with the property `White_Space`. -/
def isBlank (c : Char) : Bool :=
  let n := c.toNat
  (9 ≤ n && n ≤ 13) || n == 0x20 || n == 0x85 || n == 0xA0 || n == 0x1680 ||
    (0x2000 ≤ n && n ≤ 0x200A) || n == 0x2028 || n == 0x2029 || n == 0x202F ||
    n == 0x205F || n == 0x3000

/-- The text without the blanks at its two ends. -/
def trimChars (cs : List Char) : List Char :=
  ((cs.dropWhile isBlank).reverse.dropWhile isBlank).reverse

/-- Gathers the words of a text; `word` is the word being read and `done` the finished ones,
both written backwards. -/
def gatherWords (word : List Char) (done : List (List Char)) : List Char → List (List Char)
  | [] => (if word.isEmpty then done else word.reverse :: done).reverse
  | c :: cs =>
    if isBlank c then
      gatherWords [] (if word.isEmpty then done else word.reverse :: done) cs
    else
      gatherWords (c :: word) done cs

/-- The maximal runs of characters that are not blank, in order. -/
def words (cs : List Char) : List (List Char) :=
  gatherWords [] [] cs

/-- The words of a text with one space between two of them. -/
def collapseChars (cs : List Char) : List Char :=
  [' '].intercalate (words cs)

/-- The text without the blanks at its two ends. -/
def trim (s : String) : String :=
  String.ofList (trimChars s.toList)

/-- Each run of blanks becomes one space, and none is left at the two ends. -/
def collapse (s : String) : String :=
  String.ofList (collapseChars s.toList)

/-- A text of blanks only. -/
def isBlankText (s : String) : Bool :=
  s.toList.all isBlank

end CodeOutline.Text
