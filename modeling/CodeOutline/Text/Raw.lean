import CodeOutline.Text.Utf8

/-! # Raw texts

What a system takes for the name or the path of a file: bytes. Most are the bytes of a text, but
none has to be.
-/

namespace CodeOutline

structure RawText where
  bytes : List UInt8
  deriving DecidableEq, Repr, Inhabited

namespace RawText

/-- The bytes of a text. -/
def ofText (s : String) : RawText := ⟨s.toUTF8.data.toList⟩

instance : Coe String RawText := ⟨ofText⟩

/-- The text of the bytes, if they are those of one. -/
def text? (r : RawText) : Option String := Utf8.text? r.bytes

/-- What is shown of the bytes: their text, with a replacement character for each wrong place. -/
def shown (r : RawText) : String := Utf8.replacedText r.bytes

instance : Append RawText := ⟨fun r s => ⟨r.bytes ++ s.bytes⟩⟩

def isEmpty (r : RawText) : Bool := r.bytes.isEmpty

def size (r : RawText) : Nat := r.bytes.length

@[simp] theorem bytes_append (r s : RawText) : (r ++ s).bytes = r.bytes ++ s.bytes := rfl

theorem ext_bytes {r s : RawText} (h : r.bytes = s.bytes) : r = s := by
  cases r
  cases s
  exact congrArg mk h

end RawText

end CodeOutline
