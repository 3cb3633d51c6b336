import CodeOutline.Environment
import CodeOutline.Ignore.Rules
import CodeOutline.Volume.Basic

/-! # Where ignore files are

Every directory can have an ignore file and an exclude file of its own. The user can name one more
file for all directories in the settings of the version control, and else has one at a usual place.
-/

namespace CodeOutline.Ignore

/-- The name of the ignore file of a directory. -/
def ignoreFileName : RawText := ".gitignore"

/-- Where a directory has its exclude file. -/
def excludeFileParts : List RawText := [".git", "info", "exclude"]

/-- A line that names the file of the user, with the name in a group. -/
def excludesFileLine : Regex :=
  let blank := byteSet [(9, 13), (32, 32)]
  let other := byteSet [(0, 8), (14, 31), (33, 0xFF)]
  let anyCase (c : Char) : Regex :=
    .set ((Regex.CharSet.singleton c).union (Regex.CharSet.singleton c.toUpper))
  .concat ([.look .lineStart, .star blank] ++ "excludesfile".toList.map anyCase ++
    [.star blank, .char '=', .star blank, .opt (.char '\"'), .star blank,
      .group "path" (.plus false other),
      .star blank, .opt (.char '\"'), .star blank, .look .lineEnd])

/-- Puts a text in the place of each tilde. -/
def expandTildes (home : Option String) (path : String) : String :=
  match home with
  | some home =>
    String.ofList (path.toList.flatMap fun c => if c = '~' then home.toList else [c])
  | none => path

/-- The path that settings of the version control name. -/
def namedPath? (env : Environment) (content : ByteArray) : Option RawText := do
  let found ← (excludesFileLine.allMatches (byteChars content.data.toList)).head?
  let path ← Utf8.text? ((← found.group? "path").map fun c => c.toNat.toUInt8)
  return expandTildes (env.home.map RawText.shown) path

/-- The directory for settings of other programs. -/
def configHome? (env : Environment) : Option RawText :=
  match env.configHome with
  | some directory =>
    if directory.isEmpty then env.home.map (Path.join · ".config") else some directory
  | none => env.home.map (Path.join · ".config")

/-- What a file holds, if it can be read. -/
def content? (v : Volume) (env : Environment) (path : RawText) : Option ByteArray :=
  (v.read env.cwd path).toOption

/-- Where the file of the user is: as named by the settings in the directory of the user, as named
by those for all programs, or at the usual place. -/
def generalPath? (v : Volume) (env : Environment) : Option RawText :=
  let named (file : Option RawText) : Option RawText :=
    (file.bind (content? v env)).bind (namedPath? env)
  named (env.home.map (Path.join · ".gitconfig")) <|>
    named ((configHome? env).map (Path.join · "git/config")) <|>
    (configHome? env).map (Path.join · "git/ignore")

/-- The rules of the user, which count from the working directory. -/
def generalRules (v : Volume) (env : Environment) : List RuleList :=
  (((generalPath? v env).bind (content? v env)).map fun content =>
    ⟨env.cwd, rulesOf content.data.toList⟩).toList

/-- The rules that hold before any directory is entered. -/
def Layers.start (v : Volume) (env : Environment) : Layers :=
  { Layers.empty with general := generalRules v env }

/-- The rules in a directory, where `content?` reads the files in it. -/
def Layers.enter (ls : Layers) (directory : RawText)
    (content? : List RawText → Option ByteArray) : Layers :=
  let read (parts : List RawText) : List RuleList :=
    ((content? parts).map fun content => ⟨directory, rulesOf content.data.toList⟩).toList
  { ls with
    nested := read [ignoreFileName] ++ ls.nested
    excluded := read excludeFileParts ++ ls.excluded }

end CodeOutline.Ignore
