import CodeOutline.Command.Run

/-! # The program

Reads the part of the file system that the command can look at into a volume, runs the command on
it, and prints what the command prints. Only what has a text for a name is read.
-/

namespace CodeOutline.Program

/-- What is at a path itself, links not followed. -/
def kind? (path : RawText) : IO (Option IO.FS.FileType) := do
  match ← (System.mkFilePath [path.shown]).symlinkMetadata.toBaseIO with
  | .ok metadata => return some metadata.type
  | .error _ => return none

/-- The names on the way to what a path leads to, none of them a link. -/
def realNames? (path : RawText) : IO (Option (List RawText)) := do
  match ← (IO.FS.realPath path.shown).toBaseIO with
  | .ok real => return some (Path.names "/" real.toString)
  | .error _ => return none

abbrev Reading := StateT Volume IO

def keep (place : List RawText) (node : Node) : Reading Unit :=
  modify (·.put place node)

/-- Keeps a directory, unless it is kept already. -/
def keepDirectory (place : List RawText) : Reading Unit := do
  if ((← get).top.at? place).isNone then keep place (.directory [])

/-- Why something cannot be read. -/
def fault : IO.Error → FileError
  | .permissionDenied .. => .denied
  | _ => .failed

/-- Keeps that what is at a place cannot be read. -/
def refuse (place : List RawText) (error : FileError) : Reading Unit :=
  modify fun v => { v with refusal := fun access other =>
    if access = .read && other = place then some error else v.refusal access other }

/-- Reads a file or device. Of one that cannot be read only the size is kept. -/
def readFile (place : List RawText) : Reading Unit := do
  let path := (Path.ofNames place).shown
  match ← (IO.FS.readBinFile path).toBaseIO with
  | .ok content => keep place (.file content)
  | .error error =>
    match ← (System.mkFilePath [path]).metadata.toBaseIO with
    | .ok metadata =>
      keep place (.file ⟨Array.replicate metadata.byteSize.toNat 0⟩)
      refuse place (fault error)
    | .error _ => return

/-- Reads a link, with what it leads to but nothing below that. A link that leads nowhere is kept as
a link to itself if it goes round in a circle, and else as one to a missing file. -/
def readLink (place : List RawText) : Reading Unit := do
  let path := Path.ofNames place
  match ← (IO.FS.realPath path.shown).toBaseIO with
  | .error (.noFileOrDirectory ..) => keep place (.link "/missing target")
  | .error _ => keep place (.link path)
  | .ok real =>
    keep place (.link real.toString)
    let target := Path.names "/" real.toString
    match ← kind? real.toString with
    | some .dir => keepDirectory target
    | some .file => readFile target
    | some .other => keep target .device
    | _ => return

/-- Reads what is at a place, and all that is below it. -/
partial def readTree (place : List RawText) : Reading Unit := do
  let path := Path.ofNames place
  match ← kind? path with
  | some .dir =>
    keepDirectory place
    match ← (System.mkFilePath [path.shown]).readDir.toBaseIO with
    | .ok entries =>
      for entry in entries do readTree (place ++ [(entry.fileName : RawText)])
    | .error error => refuse place (fault error)
  | some .file => readFile place
  | some .symlink => readLink place
  | some .other => keep place .device
  | none => return

/-- Reads the links on the way to a path, and gives the place it leads to. -/
partial def approach (place : List RawText) : List RawText → Reading (Option (List RawText))
  | [] => return some place
  | part :: rest => do
    let next := Path.enter place part
    if next.length ≤ place.length then approach next rest
    else
      match ← kind? (Path.ofNames next) with
      | some .symlink =>
        readLink next
        match ← realNames? (Path.ofNames next) with
        | some real => approach real rest
        | none => return none
      | some _ => approach next rest
      | none => return none

/-- Reads what a path leads to, and all that is below it. -/
def readPath (cwd path : RawText) : Reading Unit := do
  match ← approach [] (Path.parts (Path.join cwd path)) with
  | some place => readTree place
  | none => return

/-- The files that the command looks at before it knows of others. -/
def fixedPaths (env : Environment) : List RawText :=
  SettingsSource.namesInDirectory ++
    ((SettingsSource.userDirectory? env).map (Path.join · SettingsSource.nameOfUser)).toList ++
    (env.home.map (Path.join · ".gitconfig")).toList ++
    ((Ignore.configHome? env).map (Path.join · "git")).toList

/-- Reads what an invocation can look at. -/
def readFor (env : Environment) (i : Command.Invocation) : Reading Unit := do
  keepDirectory (Path.names "/" env.cwd)
  for path in fixedPaths env ++ i.settings.toList do readPath env.cwd path
  match i.task with
  | .scan a =>
    readPath env.cwd (Path.absolute env.cwd (a.path.getD "."))
    match Ignore.generalPath? (← get) env with
    | some path => readPath env.cwd path
    | none => return
  | _ => return

/-- The raw text of an environment variable. -/
def rawVariable (name : String) : IO (Option RawText) :=
  return (← IO.getEnv name).map RawText.ofText

def environment : IO Environment :=
  return ⟨(← IO.currentDir).toString, ← rawVariable "HOME", ← rawVariable "DOCSCAN_CONFIG_DIR",
    ← rawVariable "XDG_CONFIG_HOME"⟩

/-- The volume for an invocation. -/
def volume (env : Environment) (arguments : List RawText) : IO Volume := do
  match Command.Invocation.ofArguments arguments with
  | .ok i => return (← (readFor env i).run { top := .directory [] }).2
  | .error _ => return { top := .directory [] }

/-- Writes the file that an invocation has made, if it has made one. -/
def writeBack (arguments : List RawText) : IO Unit := do
  match Command.Invocation.ofArguments arguments with
  | .ok ⟨.init _, _⟩ => IO.FS.writeFile Command.newFileName.shown Command.template
  | _ => return

/-- Runs the command with the arguments of the program. -/
def run (arguments : List RawText) : IO UInt32 := do
  let env ← environment
  let outcome := Command.run (← volume env arguments) env arguments
  if outcome.code = 0 then writeBack arguments
  IO.print outcome.output
  if !outcome.error.isEmpty then IO.eprintln outcome.error
  return outcome.code.toUInt32

end CodeOutline.Program

def main (arguments : List String) : IO UInt32 :=
  CodeOutline.Program.run (arguments.map CodeOutline.RawText.ofText)
