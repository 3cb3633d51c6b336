import CodeOutline.Ignore.Sources
import CodeOutline.Report.Basic
import CodeOutline.Settings.Basic

/-! # Walks

The entries below a directory, in the order of the listing: in every directory first what leads to
no directory and then the directories, each with what is below it, both by their names. Links are
not entered, but a link to a directory is listed as one. Everything is looked up by its path, so what
has too long a path leads nowhere, and a directory with such a path is listed but not entered.
-/

namespace CodeOutline

/-- An entry of the listing. -/
structure Entry where
  /-- The names from the scanned directory down. -/
  names : List RawText
  kind : EntryKind
  /-- What its path leads to. -/
  target : Except FileError Target

/-- A walk below a directory. -/
structure Walk where
  volume : Volume
  /-- The path of the directory, as it was given. -/
  root : RawText
  /-- Where the directory is, and how many links may still be followed from there. -/
  base : Found
  settings : ScanSettings

/-- A path leads to a directory, or else to what counts as a file. -/
def EntryKind.ofTarget : Except FileError Target → EntryKind
  | .ok target => if target.node.isDirectory then .directory else .file
  | .error _ => .file

/-- A name in a directory, with the entries it adds to the listing. -/
structure Walk.Branch where
  name : RawText
  /-- What the path leads to. -/
  leads : EntryKind
  entries : List Entry

/-- What leads to no directory comes first, and names are in the order of their bytes. -/
def Walk.Branch.before (a b : Walk.Branch) : Bool :=
  match a.leads, b.leads with
  | .file, .directory => true
  | .directory, .file => false
  | _, _ => a.name.bytes ≤ b.name.bytes

namespace Walk

/-- The path of an entry, starting with the root as it was given. -/
def pathOf (w : Walk) (names : List RawText) : RawText :=
  names.foldl Path.join w.root

/-- What a path below the directory leads to, where `names` are those of directories. -/
def find (w : Walk) (names parts : List RawText) : Except FileError Target :=
  if Volume.pathLimit < (w.pathOf (names ++ parts)).size then .error .nameTooLong
  else
    match w.volume.follow w.base.links (w.base.place ++ names) parts with
    | .ok (.found f) => .ok (w.volume.target f)
    | .ok (.vacant ..) => .error .missing
    | .error e => .error e

/-- A link is listed as what it leads to, and everything else as what it is. -/
def kindOf (node : Node) (target : Except FileError Target) : EntryKind :=
  match node with
  | .link _ => .ofTarget target
  | .directory _ => .directory
  | _ => .file

/-- The content of a file in a directory of the walk. -/
def content? (w : Walk) (names parts : List RawText) : Option ByteArray :=
  match w.find names parts with
  | .ok ⟨.file content, none⟩ => some content
  | _ => none

/-- The ignore rules in a directory of the walk. -/
def enter (w : Walk) (layers : Ignore.Layers) (names : List RawText) : Ignore.Layers :=
  if w.settings.respectGitignore then layers.enter (w.pathOf names) (w.content? names) else layers

/-- The names in a directory of the walk can be read. -/
def opens (w : Walk) (names : List RawText) : Bool :=
  (w.pathOf names).size ≤ Volume.pathLimit &&
    (w.volume.refusal .read (w.base.place ++ names)).isNone

/-- The settings leave out an entry of this name. -/
def leavesOut (w : Walk) (name : RawText) : EntryKind → Bool
  | .directory => w.settings.ignoreDirs.contains name.shown
  | .file =>
    w.settings.ignoreFiles.contains name.shown ||
      match Path.extension? name with
      | some extension => w.settings.ignoreExtensions.contains extension
      | none => false

mutual

/-- The entries below a directory. -/
def below (w : Walk) (layers : Ignore.Layers) (names : List RawText) : Node → List Entry
  | .directory entries =>
    if w.opens names then
      ((w.branches (w.enter layers names) names entries).mergeSort Branch.before).flatMap
        (·.entries)
    else []
  | .file _ => []
  | .link _ => []
  | .device => []

/-- The branches for the names in a directory that are listed. -/
def branches (w : Walk) (layers : Ignore.Layers) (names : List RawText) :
    List (RawText × Node) → List Branch
  | [] => []
  | (name, node) :: others =>
    let target := w.find names [name]
    let kind := kindOf node target
    let here := names ++ [name]
    if layers.ignores (w.pathOf here) node.isDirectory || w.leavesOut name kind then
      w.branches layers names others
    else
      ⟨name, .ofTarget target, ⟨here, kind, target⟩ :: w.below layers here node⟩ ::
        w.branches layers names others

end

/-- The listing. -/
def entries (w : Walk) (env : Environment) : List Entry :=
  let layers :=
    if w.settings.respectGitignore then Ignore.Layers.start w.volume env else .empty
  w.below layers [] w.base.node

end Walk

end CodeOutline
