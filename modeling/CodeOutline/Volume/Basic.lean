import CodeOutline.Path

/-! # Volumes

A tree of files, directories, symbolic links and devices, and the way from a path to what it names. A link
on the way is replaced by its target, which counts from the directory of the link; the names that
are left then follow the target. What a path leads to may still be refused to whoever wants to read
or write it.
-/

namespace CodeOutline

/-- What a name in a directory stands for. -/
inductive Node
  | file (content : ByteArray)
  | directory (entries : List (RawText × Node))
  | link (target : RawText)
  /-- A device, which holds nothing. -/
  | device
  deriving Inhabited

/-- Why a path cannot be used. -/
inductive FileError
  | missing
  | failed
  | denied
  | notDirectory
  | isDirectory
  | full
  | nameTooLong
  | tooManyLinks
  /-- The content is no text. -/
  | notText
  /-- The path has a NUL character, which no name can have. -/
  | nulInPath
  deriving DecidableEq, Repr

def FileError.message : FileError → String
  | .missing => "No such file or directory (os error 2)"
  | .failed => "Input/output error (os error 5)"
  | .denied => "Permission denied (os error 13)"
  | .notDirectory => "Not a directory (os error 20)"
  | .isDirectory => "Is a directory (os error 21)"
  | .full => "No space left on device (os error 28)"
  | .nameTooLong => "File name too long (os error 36)"
  | .tooManyLinks => "Too many levels of symbolic links (os error 40)"
  | .notText => "stream did not contain valid UTF-8"
  | .nulInPath => "file name contained an unexpected NUL byte"

namespace Node

def isDirectory : Node → Bool
  | .directory _ => true
  | _ => false

def isFile : Node → Bool
  | .file _ => true
  | _ => false

/-- What stands at a place, which is given by the names on the way from this node down. No name on
the way is a link. -/
def at? : List RawText → Node → Option Node
  | [], node => some node
  | name :: names, .directory entries => (entries.lookup name).bind (at? names)
  | _ :: _, _ => none

end Node

/-- What the content at a place is wanted for. -/
inductive Access
  | read
  | write
  deriving DecidableEq, Repr

/-- A whole tree of files. Its top is a directory. -/
structure Volume where
  top : Node
  /-- Why the content at a place cannot be had, where it cannot. To list a directory is to read it. -/
  refusal : Access → List RawText → Option FileError := fun _ _ => none
  /-- How many bytes there is room for in one file, where there is a bound. -/
  room : Option Nat := none

/-- What a path leads to: the place, the node there, and the number of links that may still be
followed. -/
structure Found where
  place : List RawText
  node : Node
  links : Nat

/-- What a path leads to, for those who do not ask for the place: the node, and why its content
cannot be read, if so. -/
structure Target where
  node : Node
  refusal : Option FileError

/-- The content that is read there. -/
def Target.content : Target → Except FileError ByteArray
  | ⟨_, some e⟩ => .error e
  | ⟨.file content, none⟩ => .ok content
  | ⟨.device, none⟩ => .ok .empty
  | ⟨_, none⟩ => .error .isDirectory

namespace Volume

/-- The longest name in bytes. -/
def nameLimit : Nat := 255

/-- The longest path in bytes. -/
def pathLimit : Nat := 4095

/-- The most links that one path may lead through. -/
def linkLimit : Nat := 40

/-- How far the parts of a path lead without a link. -/
inductive Progress
  | arrived (place : List RawText) (node : Node)
  /-- Only the last name is missing, in a directory that is there. -/
  | vacant (directory : List RawText) (name : RawText)
  /-- A link in a directory, and the parts after it. -/
  | link (directory : List RawText) (target : RawText) (rest : List RawText)

/-- Follows the parts of a path from a directory up to the first link. -/
def advance (v : Volume) (place : List RawText) : List RawText → Except FileError Progress
  | [] =>
    match v.top.at? place with
    | some node => .ok (.arrived place node)
    | none => .error .missing
  | part :: rest =>
    if part = "" ∨ part = "." ∨ part = ".." then v.advance (Path.enter place part) rest
    else if nameLimit < part.size then .error .nameTooLong
    else
      match v.top.at? (place ++ [part]) with
      | none => if rest = [] then .ok (.vacant place part) else .error .missing
      | some (.link target) => .ok (.link place target rest)
      | some (.directory _) => v.advance (place ++ [part]) rest
      | some node => if rest = [] then .ok (.arrived (place ++ [part]) node) else .error .notDirectory

/-- The result of following a path to its end. -/
inductive Destination
  | found (f : Found)
  | vacant (directory : List RawText) (name : RawText)

/-- Follows the parts of a path from a directory to the end, through at most `links` links. -/
def follow (v : Volume) (links : Nat) (place parts : List RawText) : Except FileError Destination :=
  match v.advance place parts with
  | .error e => .error e
  | .ok (.arrived place node) => .ok (.found ⟨place, node, links⟩)
  | .ok (.vacant directory name) => .ok (.vacant directory name)
  | .ok (.link directory target rest) =>
    match links with
    | 0 => .error .tooManyLinks
    | links + 1 =>
      v.follow links (if Path.isAbsolute target then [] else directory) (Path.parts target ++ rest)

/-- Follows a path to its end. A path that is not absolute counts from the working directory. -/
def reach (v : Volume) (cwd path : RawText) : Except FileError Destination :=
  if path.bytes.contains 0 then .error .nulInPath
  else if path.isEmpty then .error .missing
  else if pathLimit < path.size then .error .nameTooLong
  else v.follow linkLimit [] (Path.parts (Path.join cwd path))

/-- What a path leads to. -/
def find (v : Volume) (cwd path : RawText) : Except FileError Found :=
  match v.reach cwd path with
  | .ok (.found f) => .ok f
  | .ok (.vacant ..) => .error .missing
  | .error e => .error e

/-- Something is at the path, after following links. -/
def has (v : Volume) (cwd path : RawText) : Bool :=
  match v.find cwd path with
  | .ok _ => true
  | .error _ => false

def isDirectory (v : Volume) (cwd path : RawText) : Bool :=
  match v.find cwd path with
  | .ok f => f.node.isDirectory
  | .error _ => false

def isFile (v : Volume) (cwd path : RawText) : Bool :=
  match v.find cwd path with
  | .ok f => f.node.isFile
  | .error _ => false

/-- What is at the end of a path that has been followed. -/
def target (v : Volume) (f : Found) : Target :=
  ⟨f.node, v.refusal .read f.place⟩

/-- The content of a file. -/
def read (v : Volume) (cwd path : RawText) : Except FileError ByteArray :=
  match v.find cwd path with
  | .ok f => (v.target f).content
  | .error e => .error e

/-- The content of a file of text. -/
def readText (v : Volume) (cwd path : RawText) : Except FileError String :=
  match v.read cwd path with
  | .ok content =>
    match Utf8.text? content.data.toList with
    | some text => .ok text
    | none => .error .notText
  | .error e => .error e

end Volume

end CodeOutline
