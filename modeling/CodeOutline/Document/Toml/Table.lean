import CodeOutline.Document.Value

/-! # Tables in the making

The tables of a TOML document while it is read. A table is defined once, by a header, by the parts
of a key, or as a value, and no later line defines it again in another way.
-/

namespace CodeOutline.Document.Toml

/-- How a table has come about. -/
inductive Origin
  /-- It has a header of its own, or is the document. -/
  | header
  /-- It is named in the header of a table in it. -/
  | implied
  /-- It is named by the first parts of a key. -/
  | dotted
  deriving DecidableEq, Repr

/-- What stands under a key. -/
inductive Item
  | value (v : Value)
  | table (origin : Origin) (entries : List (String × Item))
  /-- Tables with a doubled header, the last one first. -/
  | tables (items : List (List (String × Item)))
  deriving Inhabited

abbrev Entries := List (String × Item)

namespace Entries

def find? (key : String) : Entries → Option Item
  | [] => none
  | (k, item) :: rest => if k = key then some item else find? key rest

def remove (key : String) : Entries → Entries
  | [] => []
  | (k, item) :: rest => if k = key then rest else (k, item) :: remove key rest

/-- Puts an item under a key, in the place of the one there. -/
def set (key : String) (item : Item) : Entries → Entries
  | [] => [(key, item)]
  | (k, old) :: rest => if k = key then (k, item) :: rest else (k, old) :: set key item rest

/-- Changes the table at the end of a path of headers. Tables on the way that are not there yet are
implied, and of tables with a doubled header the last one counts. -/
def updateAt (path : List String) (change : Entries → Option Entries) (es : Entries) :
    Option Entries :=
  match path with
  | [] => change es
  | key :: path =>
    match es.find? key with
    | none => (updateAt path change []).map fun t => es.set key (.table .implied t)
    | some (.value _) => none
    | some (.table origin t) =>
      (updateAt path change t).map fun t => es.set key (.table origin t)
    | some (.tables []) => none
    | some (.tables (last :: earlier)) =>
      (updateAt path change last).map fun t => es.set key (.tables (t :: earlier))

/-- Puts a value under a key of several parts. The tables on the way are not there yet or have no
header of their own, and the value goes into one that is named by keys; `open_` tells whether the
entries are those of such a table, or of the table that the line stands in. -/
def insertKey (value : Value) : (path : List String) → (open_ : Bool) → Entries → Option Entries
  | [], _, _ => none
  | [key], open_, es =>
    match open_, es.find? key with
    | true, none => some (es.set key (.value value))
    | _, _ => none
  | key :: path, _, es =>
    match es.find? key with
    | none => (insertKey value path true []).map fun t => es.set key (.table .dotted t)
    | some (.table .dotted t) =>
      (insertKey value path true t).map fun t => es.set key (.table .dotted t)
    | some (.table .implied t) =>
      (insertKey value path false t).map fun t => es.set key (.table .implied t)
    | some (.tables (last :: earlier)) =>
      (insertKey value path false last).map fun t => es.set key (.tables (t :: earlier))
    | _ => none

end Entries

/-- A document while it is read: the tables that are finished, and the one that lines are added to,
with the path of its header. -/
structure Draft where
  finished : Entries
  path : List String
  /-- The header is doubled, so the table is one of several. -/
  repeated : Bool
  entries : Entries

namespace Draft

def empty : Draft := ⟨[], [], false, []⟩

/-- Puts the last table into its place. -/
def finish (d : Draft) : Option Entries :=
  match d.path.getLast? with
  | none => some d.entries
  | some key =>
    d.finished.updateAt d.path.dropLast fun es =>
      if d.repeated then
        match es.find? key with
        | none => some (es.set key (.tables [d.entries]))
        | some (.tables items) => some (es.set key (.tables (d.entries :: items)))
        | some _ => none
      else some (es.set key (.table .header d.entries))

/-- The entries of the table at a path. -/
def tableAt? (es : Entries) : List String → Option Entries
  | [] => some es
  | key :: path =>
    match es.find? key with
    | none => some []
    | some (.value _) => none
    | some (.table _ t) => tableAt? t path
    | some (.tables []) => none
    | some (.tables (last :: _)) => tableAt? last path

/-- Begins a table with a header. A table that is implied by the headers of others goes on. -/
def beginTable (d : Draft) (path : List String) : Option Draft := do
  let finished ← d.finish
  let key ← path.getLast?
  let parent ← tableAt? finished path.dropLast
  match parent.find? key with
  | none => return ⟨finished, path, false, []⟩
  | some (.table .implied t) =>
    let finished ← finished.updateAt path.dropLast fun es => some (es.remove key)
    return ⟨finished, path, false, t⟩
  | some _ => none

/-- Begins one of several tables with a doubled header. -/
def beginRepeated (d : Draft) (path : List String) : Option Draft := do
  let finished ← d.finish
  let key ← path.getLast?
  let parent ← tableAt? finished path.dropLast
  match parent.find? key with
  | none => return ⟨finished, path, true, []⟩
  | some (.tables _) => return ⟨finished, path, true, []⟩
  | some _ => none

/-- Adds a value under a key to the table that is read. -/
def add (d : Draft) (key : List String) (value : Value) : Option Draft :=
  (d.entries.insertKey value key true).map fun es => { d with entries := es }

end Draft

mutual

/-- The value of an item. -/
def Item.toValue : Item → Value
  | .value v => v
  | .table _ entries => .table (entriesToValues entries)
  | .tables items => .list (tablesToValues items).reverse

def entriesToValues : List (String × Item) → List (String × Value)
  | [] => []
  | (key, item) :: rest => (key, item.toValue) :: entriesToValues rest

def tablesToValues : List (List (String × Item)) → List Value
  | [] => []
  | entries :: rest => .table (entriesToValues entries) :: tablesToValues rest

end

end CodeOutline.Document.Toml
