import CodeOutline.Volume.Basic

/-! # Changes to a volume

To write a file is to cut it to nothing and then to fill it. When there is no room for all of the new
content, the start of it is left in the file.
-/

namespace CodeOutline

namespace Node

/-- The entries of a directory with one for a name, in the place of the one that it had. -/
def setEntry (name : RawText) (node : Node) : List (RawText × Node) → List (RawText × Node)
  | [] => [(name, node)]
  | e :: es => if e.1 = name then (name, node) :: es else e :: setEntry name node es

/-- Puts a node at a place. Directories that are missing on the way are made. -/
def put : Node → List RawText → Node → Node
  | .directory entries, name :: names, new =>
    let old := (entries.lookup name).getD (.directory [])
    .directory (setEntry name (old.put names new) entries)
  | _, [], new => new
  | node, _ :: _, _ => node

end Node

namespace Volume

def put (v : Volume) (place : List RawText) (node : Node) : Volume :=
  { v with top := v.top.put place node }

/-- The part of a content that there is room for. -/
def fitting (v : Volume) (content : ByteArray) : ByteArray :=
  match v.room with
  | some room => content.extract 0 room
  | none => content

/-- There is room for all of a content. -/
def takes (v : Volume) (content : ByteArray) : Bool :=
  match v.room with
  | some room => content.size ≤ room
  | none => true

/-- Fills a file at a place, and tells what went wrong if something did. -/
def fill (v : Volume) (place : List RawText) (content : ByteArray) : Volume × Option FileError :=
  match v.refusal .write place with
  | some e => (v, some e)
  | none => (v.put place (.file (v.fitting content)), if v.takes content then none else some .full)

/-- Writes a file, and tells what went wrong if something did. One that is there gets the new
content, and one that is missing is made, also where a link leads to. A device keeps nothing of what
is written to it. -/
def write (v : Volume) (cwd path : RawText) (content : ByteArray) : Volume × Option FileError :=
  match v.reach cwd path with
  | .ok (.found ⟨place, .file _, _⟩) => v.fill place content
  | .ok (.found ⟨place, .device, _⟩) => (v, v.refusal .write place)
  | .ok (.found _) => (v, some .isDirectory)
  | .ok (.vacant directory name) => v.fill (directory ++ [name]) content
  | .error e => (v, some e)

end Volume

end CodeOutline
