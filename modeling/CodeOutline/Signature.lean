import CodeOutline.Text.Blank

/-! # Signatures

A declaration as it is reported: its name, its arguments and its result. Arguments and result are
collapsed, so that each is one line.
-/

namespace CodeOutline

structure Signature where
  name : String
  arguments : String
  /-- Empty when the declaration names no result. -/
  result : String
  deriving DecidableEq, Repr

/-- The signature of a declaration read from source text, or none when the name is blank. -/
def Signature.ofTexts? (name arguments result : String) : Option Signature :=
  let name := Text.trim name
  if name.isEmpty then none
  else some ⟨name, Text.collapse arguments, Text.collapse result⟩

end CodeOutline
