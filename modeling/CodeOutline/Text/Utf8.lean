/-! # UTF-8

Texts from bytes. Bytes that start a character but do not complete it count as one wrong place,
as far as they go; every other byte that belongs to no character is a wrong place of its own.
-/

namespace CodeOutline.Utf8

/-- A character of which some bytes are still to come: the value of its bits so far, how many bytes
are missing, and the bounds of the next one. -/
structure Pending where
  value : Nat
  missing : Nat
  low : Nat
  high : Nat
  deriving DecidableEq, Repr

/-- What the first byte of a character of two bytes or more says. The bounds of the second byte
keep out characters that have a shorter form, and code points that are no characters. -/
def lead? (b : Nat) : Option Pending :=
  if 0xC2 ≤ b && b ≤ 0xDF then some ⟨b - 0xC0, 1, 0x80, 0xBF⟩
  else if b == 0xE0 then some ⟨b - 0xE0, 2, 0xA0, 0xBF⟩
  else if b == 0xED then some ⟨b - 0xE0, 2, 0x80, 0x9F⟩
  else if 0xE1 ≤ b && b ≤ 0xEF then some ⟨b - 0xE0, 2, 0x80, 0xBF⟩
  else if b == 0xF0 then some ⟨b - 0xF0, 3, 0x90, 0xBF⟩
  else if 0xF1 ≤ b && b ≤ 0xF3 then some ⟨b - 0xF0, 3, 0x80, 0xBF⟩
  else if b == 0xF4 then some ⟨b - 0xF0, 3, 0x80, 0x8F⟩
  else none

/-- A decoder between two bytes: the character it is in, if any, and the places it has read,
backwards, where `none` is a wrong place. -/
structure State where
  pending : Option Pending
  done : List (Option Char)
  deriving DecidableEq, Repr

/-- Reads the first byte of a character. -/
def startCharacter (done : List (Option Char)) (b : Nat) : State :=
  if b < 0x80 then ⟨none, some (Char.ofNat b) :: done⟩
  else
    match lead? b with
    | some p => ⟨some p, done⟩
    | none => ⟨none, none :: done⟩

/-- Reads one byte. -/
def State.read (s : State) (byte : UInt8) : State :=
  let b := byte.toNat
  match s.pending with
  | none => startCharacter s.done b
  | some p =>
    if p.low ≤ b && b ≤ p.high then
      let value := p.value * 64 + (b - 0x80)
      if p.missing ≤ 1 then ⟨none, some (Char.ofNat value) :: s.done⟩
      else ⟨some ⟨value, p.missing - 1, 0x80, 0xBF⟩, s.done⟩
    else startCharacter (none :: s.done) b

/-- The end of the bytes, where a character that is not complete is a wrong place. -/
def State.finish (s : State) : List (Option Char) :=
  (if s.pending.isSome then none :: s.done else s.done).reverse

/-- The characters of bytes, with `none` for each wrong place. -/
def decode (bytes : List UInt8) : List (Option Char) :=
  (bytes.foldl State.read ⟨none, []⟩).finish

/-- The text of bytes that have no wrong place. -/
def text? (bytes : List UInt8) : Option String :=
  ((decode bytes).mapM id).map String.ofList

/-- What stands for a wrong place. -/
def replacement : Char := '\uFFFD'

/-- The text of bytes, with a replacement character for each wrong place. -/
def replacedText (bytes : List UInt8) : String :=
  String.ofList ((decode bytes).map (·.getD replacement))

end CodeOutline.Utf8
