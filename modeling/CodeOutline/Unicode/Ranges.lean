/-! # Ranges of characters

Sets of code points as lists of ranges, and the packed form in which the tables of character
properties are written.
-/

namespace CodeOutline.Unicode

/-- The code points from the first to the second, both included. -/
abbrev Range := Nat × Nat

/-- Adds a range to sorted ranges written backwards, joining it with the last one when the two
overlap or touch. -/
def joinRange (done : List Range) (r : Range) : List Range :=
  match done with
  | [] => [r]
  | last :: earlier =>
    if r.1 ≤ last.2 + 1 then (last.1, max last.2 r.2) :: earlier else r :: last :: earlier

/-- The same code points as sorted ranges that neither overlap nor touch. -/
def mergeRanges (rs : List Range) : List Range :=
  ((rs.mergeSort fun a b => a.1 ≤ b.1).foldl joinRange []).reverse

/-- The gaps between sorted ranges, from `next` on; `done` are those already found, backwards. -/
def gaps (next : Nat) (done : List Range) : List Range → List Range
  | [] => (if next ≤ 0x10FFFF then (next, 0x10FFFF) :: done else done).reverse
  | r :: rs => gaps (r.2 + 1) (if next < r.1 then (next, r.1 - 1) :: done else done) rs

/-- The code points that are in none of the ranges. -/
def complementRanges (rs : List Range) : List Range :=
  gaps 0 [] (mergeRanges rs)

/-- Searches sorted ranges between two places; the fuel bounds the halvings. -/
def searchRanges (table : Array Range) (n : Nat) : Nat → Nat → Nat → Bool
  | 0, _, _ => false
  | fuel + 1, low, high =>
    if low < high then
      let middle := (low + high) / 2
      match table[middle]? with
      | some r =>
        if n < r.1 then searchRanges table n fuel low middle
        else if r.2 < n then searchRanges table n fuel (middle + 1) high
        else true
      | none => false
    else false

/-- A code point is in one of the sorted ranges. -/
def inSortedRanges (table : Array Range) (n : Nat) : Bool :=
  searchRanges table n (table.size + 1) 0 table.size

/-! ## Packed tables

A packed table is a sequence of numbers in base 32. The last digit of a number is a capital letter,
one of `w` to `z`, a plus or a minus sign; the digits before it are decimal digits and the letters
`a` to `v`. For ranges the numbers are, in turn, how far a range starts beyond the end of the one
before, and how many code points it has besides its first.
-/

/-- A digit that another one follows. -/
def openDigit? (c : Char) : Option Nat :=
  if '0' ≤ c ∧ c ≤ '9' then some (c.toNat - 48)
  else if 'a' ≤ c ∧ c ≤ 'v' then some (c.toNat - 87)
  else none

/-- The last digit of a number. -/
def lastDigit (c : Char) : Nat :=
  if 'A' ≤ c ∧ c ≤ 'Z' then c.toNat - 65
  else if 'w' ≤ c ∧ c ≤ 'z' then c.toNat - 93
  else if c = '+' then 30
  else 31

/-- Reads one character: the value of the digits of an unfinished number, and the finished
numbers, backwards. -/
def unpackStep (state : Nat × List Nat) (c : Char) : Nat × List Nat :=
  match openDigit? c with
  | some d => (state.1 * 32 + d, state.2)
  | none => (0, (state.1 * 32 + lastDigit c) :: state.2)

def unpackNumbers (s : String) : List Nat :=
  (s.toList.foldl unpackStep (0, [])).2.reverse

/-- Reads ranges from their distances and lengths. -/
def readRanges (next : Nat) (done : List Range) : List Nat → List Range
  | gap :: length :: rest =>
    readRanges (next + gap + length + 1) ((next + gap, next + gap + length) :: done) rest
  | _ => done.reverse

def unpackRanges (s : String) : List Range :=
  readRanges 0 [] (unpackNumbers s)

/-- The names of a set of characters, normalised, and its ranges in packed form. -/
structure NamedRanges where
  names : List String
  packed : String

/-- The ranges that have a name. -/
def find? (table : List NamedRanges) (name : String) : Option (List Range) :=
  (table.find? (·.names.contains name)).map (unpackRanges ·.packed)

end CodeOutline.Unicode
