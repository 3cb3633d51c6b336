import CodeOutline.Environment
import CodeOutline.Settings.Check
import CodeOutline.Volume.Basic

/-! # Where settings are

The settings for a directory are in a file that is named explicitly, or else in one in the directory
itself, or else in one in the settings directory of the user. Without any of them the defaults hold.
-/

namespace CodeOutline

inductive SettingsSource
  /-- A file that is named, whether it is there or not. -/
  | named (path : RawText)
  /-- A file in the directory itself. -/
  | inDirectory (path : RawText)
  /-- A file in the settings directory of the user. -/
  | ofUser (path : RawText)
  | defaults
  deriving DecidableEq, Repr

namespace SettingsSource

def path? : SettingsSource → Option RawText
  | .named path => some path
  | .inDirectory path => some path
  | .ofUser path => some path
  | .defaults => none

/-- The names of a settings file in a directory. The first one that is there counts. -/
def namesInDirectory : List RawText := ["docscan.toml", ".docscan.toml"]

/-- The name of the settings file in the settings directory of the user. -/
def nameOfUser : RawText := "config.toml"

/-- The settings directory of the user. One that is set has to be a text. -/
def userDirectory? (env : Environment) : Option RawText :=
  match env.settingsDirectory.bind RawText.text? with
  | some directory => some directory
  | none => env.home.map (Path.join · ".docscan")

/-- Where the settings for a directory are. -/
def resolve (v : Volume) (env : Environment) (root : RawText) (named : Option RawText) :
    SettingsSource :=
  match named with
  | some path => .named path
  | none =>
    match (namesInDirectory.map (Path.join root)).find? (v.isFile env.cwd) with
    | some path => .inDirectory path
    | none =>
      match (userDirectory? env).map (Path.join · nameOfUser) with
      | some path => if v.isFile env.cwd path then .ofUser path else .defaults
      | none => .defaults

end SettingsSource

/-- The settings in a file. -/
def Settings.ofFile (v : Volume) (env : Environment) (path : RawText) :
    Except SettingsError Settings :=
  match v.readText env.cwd path with
  | .ok text => Settings.parse text
  | .error error => .error (.unreadable path error.message)

end CodeOutline
