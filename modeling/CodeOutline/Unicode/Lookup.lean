import CodeOutline.Unicode.Property
import CodeOutline.Unicode.Script

/-! # Properties by name

Looks up the sets of characters that patterns ask for by the name of a property, or by the name
and the value of one. Names are compared without regard to case, spaces, hyphens and underscores,
and without `is` before them.
-/

namespace CodeOutline.Unicode

/-- What is asked for: a category, a script or a binary property by its name alone, or a value of
a property. -/
inductive Query
  | named (name : String)
  | valued (property value : String)
  deriving DecidableEq, Repr

/-- The letters of a name that count. -/
def significantLetters (cs : List Char) : List Char :=
  (cs.filter fun c => c.toNat < 128 && c != ' ' && c != '_' && c != '-').map Char.toLower

/-- The form in which names are compared. The abbreviation `isc` is a name of its own, and no
category after `is`. -/
def normalizeName (s : String) : String :=
  match s.toList with
  | i :: t :: rest =>
    if (i == 'i' || i == 'I') && (t == 's' || t == 'S') then
      let letters := significantLetters rest
      if letters == ['c'] then "isc" else String.ofList letters
    else String.ofList (significantLetters (i :: t :: rest))
  | cs => String.ofList (significantLetters cs)

/-- The ranges of a category, a script or a binary property. A few short names stand for a
category although a property has them too. -/
def namedRanges? (name : String) : Option (List Range) :=
  let name := normalizeName name
  let property := if name == "cf" || name == "sc" || name == "lc" then none else binaryRanges? name
  (property.orElse fun _ => categoryRanges? name).orElse fun _ => scriptRanges? name

/-- The ranges of a value of a property. -/
def valuedRanges? (property value : String) : Option (List Range) :=
  let value := normalizeName value
  match normalizeName property with
  | "gc" | "generalcategory" => categoryRanges? value
  | "sc" | "script" => scriptRanges? value
  | "scx" | "scriptextensions" => scriptExtensionRanges? value
  | _ => none

/-- The ranges that a query asks for, or none when no property or value has that name. -/
def Query.ranges? : Query → Option (List Range)
  | .named name => namedRanges? name
  | .valued property value => valuedRanges? property value

/-- An alphabetic character. -/
def isAlphabetic (c : Char) : Bool :=
  if c.toNat < 128 then c.isAlpha
  else ((binaryRanges? "alphabetic").getD []).any fun r => r.1 ≤ c.toNat && c.toNat ≤ r.2

/-- A character of the categories of numbers. -/
def isNumeric (c : Char) : Bool :=
  if c.toNat < 128 then c.isDigit
  else ((categoryRanges? "n").getD []).any fun r => r.1 ≤ c.toNat && c.toNat ≤ r.2

end CodeOutline.Unicode
