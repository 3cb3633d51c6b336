import CodeOutline.Unicode.Property
import CodeOutline.Unicode.Folding

/-! # Sets of characters

A set is given by ranges of code points. The operations keep the ranges sorted and apart.
-/

namespace CodeOutline.Regex

open Unicode (Range)

structure CharSet where
  ranges : List Range
  deriving DecidableEq, Repr, Inhabited

namespace CharSet

def empty : CharSet := ⟨[]⟩

def contains (s : CharSet) (c : Char) : Bool :=
  s.ranges.any fun r => r.1 ≤ c.toNat && c.toNat ≤ r.2

def ofRanges (rs : List Range) : CharSet :=
  ⟨Unicode.mergeRanges rs⟩

def ofRange (first last : Char) : CharSet :=
  ⟨[(first.toNat, last.toNat)]⟩

def singleton (c : Char) : CharSet :=
  ofRange c c

/-- Every character. -/
def any : CharSet := ⟨[(0, 0x10FFFF)]⟩

def union (s t : CharSet) : CharSet :=
  ofRanges (s.ranges ++ t.ranges)

def complement (s : CharSet) : CharSet :=
  ⟨Unicode.complementRanges s.ranges⟩

def inter (s t : CharSet) : CharSet :=
  (s.complement.union t.complement).complement

def diff (s t : CharSet) : CharSet :=
  s.inter t.complement

def symmDiff (s t : CharSet) : CharSet :=
  (s.union t).diff (s.inter t)

def isAscii (s : CharSet) : Bool :=
  s.ranges.all (·.2 < 128)

/-- A code point is in one of the ranges. -/
def hasCode (s : CharSet) (n : Nat) : Bool :=
  s.ranges.any fun r => r.1 ≤ n && n ≤ r.2

/-- Adds the characters that differ in case only from one in the set. -/
def foldCase (s : CharSet) : CharSet :=
  ofRanges (s.ranges ++
    ((Unicode.caseOrbits.filter (·.any s.hasCode)).flatten.map fun n => (n, n)))

/-- Moves a range of letters by the distance between the two cases. -/
def shiftLetters (r : Range) (first last : Nat) (up : Bool) : List Range :=
  let low := max r.1 first
  let high := min r.2 last
  if low ≤ high then [if up then (low + 32, high + 32) else (low - 32, high - 32)] else []

/-- Adds the ASCII letters that differ in case only from one in the set. -/
def foldAsciiCase (s : CharSet) : CharSet :=
  ofRanges (s.ranges ++ s.ranges.flatMap fun r =>
    shiftLetters r 0x41 0x5A true ++ shiftLetters r 0x61 0x7A false)

/-- The characters of words. -/
def word : CharSet := ⟨Unicode.wordRanges⟩

/-- The decimal digits. -/
def digit : CharSet := ⟨Unicode.digitRanges⟩

/-- The blanks. -/
def blank : CharSet := ⟨Unicode.blankRanges⟩

end CharSet

end CodeOutline.Regex
