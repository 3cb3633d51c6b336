/-! # Values of a document

What a settings file or a data exchange document holds once it is read: a tree of tables, lists
and scalars. A number that is not a whole number of 64 bits, and a date or time, are kept as
written, since no reader of this library takes one.
-/

namespace CodeOutline.Document

inductive Value
  | null
  | bool (b : Bool)
  | integer (n : Int)
  | real (written : String)
  | moment (written : String)
  | text (s : String)
  | list (items : List Value)
  | table (entries : List (String × Value))
  deriving Inhabited

namespace Value

/-- The whole numbers a document can hold: those of 64 bits, with or without a sign. -/
def fitsInteger (n : Int) : Bool :=
  -9223372036854775808 ≤ n && n ≤ 18446744073709551615

/-- The values under a name, in order. -/
def under (name : String) (entries : List (String × Value)) : List Value :=
  (entries.filter fun e => e.1 = name).map (·.2)

def asBool : Value → Option Bool
  | .bool b => some b
  | _ => none

def asText : Value → Option String
  | .text s => some s
  | _ => none

/-- A whole number from 0 to 2^64 - 1. -/
def asCount : Value → Option Nat
  | .integer n => if 0 ≤ n && n ≤ 18446744073709551615 then some n.toNat else none
  | _ => none

/-- Every item of a list, each read by `read`. -/
def asList {α : Type} (read : Value → Option α) : Value → Option (List α)
  | .list items => items.mapM read
  | _ => none

/-- Every entry of a table, each value read by `read`. -/
def asTable {α : Type} (read : Value → Option α) : Value → Option (List (String × α))
  | .table entries => entries.mapM fun (key, value) => (read value).map (key, ·)
  | _ => none

/-- One of finitely many named things: its name, or a table with that name alone and no value. -/
def asName : Value → Option String
  | .text s => some s
  | .table [(key, .null)] => some key
  | _ => none

end Value

/-! ## Records

A record is written as a table, or as the list of its fields in their order of declaration, where
fields with a default may be missing at the end.
-/

/-- What becomes of items of a list beyond the fields of the record it stands for. -/
inductive Surplus
  | refused
  | ignored
  deriving DecidableEq, Repr

namespace Value

/-- The value has the outer form of a record of `size` fields. -/
def isRecord (surplus : Surplus) (size : Nat) : Value → Bool
  | .table _ => true
  | .list items => surplus == .ignored || items.length ≤ size
  | _ => false

/-- What a record has for a field, by its name in a table and by its place in a list. A table can
name a field more than once. -/
def field (v : Value) (place : Nat) (name : String) : List Value :=
  match v with
  | .table entries => under name entries
  | .list items => items[place]?.toList
  | _ => []

/-- A field that has to be there, and not more than once. -/
def required {α : Type} (v : Value) (place : Nat) (name : String) (read : Value → Option α) :
    Option α :=
  match v.field place name with
  | [x] => read x
  | _ => none

/-- A field that may be missing. One that is there has to be readable, and there only once. -/
def optional {α : Type} (v : Value) (place : Nat) (name : String) (default : α)
    (read : Value → Option α) : Option α :=
  match v.field place name with
  | [] => some default
  | [x] => read x
  | _ => none

end Value

end CodeOutline.Document
