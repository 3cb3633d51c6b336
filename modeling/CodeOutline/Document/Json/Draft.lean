import CodeOutline.Document.Json.Printer
import CodeOutline.Text.Raw

/-! # Drafts

Values that are still to be written, some of whose texts may be raw. A raw text that is no text
cannot be written, and writing stops where it comes to one.
-/

namespace CodeOutline.Document

inductive Draft
  | value (v : Value)
  | raw (r : RawText)
  | list (items : List Draft)
  | table (entries : List (String × Draft))

namespace Draft

open Json (quote newline)

mutual

/-- The value of a draft, if all raw texts in it are texts. -/
def value? : Draft → Option Value
  | .value v => some v
  | .raw r => r.text?.map .text
  | .list items => (itemValues? items).map .list
  | .table entries => (entryValues? entries).map .table

def itemValues? : List Draft → Option (List Value)
  | [] => some []
  | item :: items =>
    match item.value?, itemValues? items with
    | some v, some vs => some (v :: vs)
    | _, _ => none

def entryValues? : List (String × Draft) → Option (List (String × Value))
  | [] => some []
  | (key, d) :: entries =>
    match d.value?, entryValues? entries with
    | some v, some es => some ((key, v) :: es)
    | _, _ => none

end

/-- What can be written in any case. -/
def plain (cs : List Char) : List (Option Char) :=
  cs.map some

mutual

/-- The indented layout of a draft at a level, with `none` for a raw text that cannot be written. -/
def indented (level : Nat) : Draft → List (Option Char)
  | .value v => plain (Json.indented level v)
  | .raw r =>
    match r.text? with
    | some s => plain (quote s)
    | none => [none]
  | .list [] => plain ['[', ']']
  | .list (item :: items) =>
    plain ('[' :: newline (level + 1)) ++ indented (level + 1) item ++ indentedItems level items
  | .table [] => plain ['\x7b', '\x7d']
  | .table ((key, d) :: entries) =>
    plain ('\x7b' :: (newline (level + 1) ++ quote key ++ [':', ' '])) ++
      indented (level + 1) d ++ indentedEntries level entries

/-- The items of a list after the first, and its end. -/
def indentedItems (level : Nat) : List Draft → List (Option Char)
  | [] => plain (newline level ++ [']'])
  | item :: items =>
    plain (',' :: newline (level + 1)) ++ indented (level + 1) item ++ indentedItems level items

/-- The entries of a table after the first, and its end. -/
def indentedEntries (level : Nat) : List (String × Draft) → List (Option Char)
  | [] => plain (newline level ++ ['\x7d'])
  | (key, d) :: entries =>
    plain (',' :: (newline (level + 1) ++ quote key ++ [':', ' '])) ++
      indented (level + 1) d ++ indentedEntries level entries

end

/-- The indented text of a draft, or else what of it is written before writing stops. -/
def prettyText (d : Draft) : Except String String :=
  let cs := d.indented 0
  match cs.mapM id with
  | some cs => .ok (String.ofList cs)
  | none => .error (String.ofList ((cs.takeWhile Option.isSome).filterMap id))

end Draft

end CodeOutline.Document
