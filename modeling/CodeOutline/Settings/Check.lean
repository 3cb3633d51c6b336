import CodeOutline.Document.Toml.Parser
import CodeOutline.Glob
import CodeOutline.Settings.Exchange
import CodeOutline.Text.Raw

/-! # Reading and checking settings

Settings from the text of a file, and the checks that settings have to pass before they are used.
-/

namespace CodeOutline

namespace Settings

/-- What can be unusable in settings that are well formed. -/
inductive Problem
  | noSignatures
  | extensionWithoutPoint (extension : String)
  | invalidGlob (glob : String) (error : Glob.Error)
  deriving DecidableEq, Repr

def Problem.message : Problem → String
  | .noSignatures => "scan.max_signatures must be at least 1"
  | .extensionWithoutPoint extension =>
    "scan.ignore_extensions: '" ++ extension ++ "' must start with '.'"
  | .invalidGlob glob error =>
    "scan.exclude: invalid glob '" ++ glob ++ "': " ++ error.message

/-- The first glob of a list that is none, with what is wrong with it. -/
def invalidGlob? (globs : List String) : Option (String × Glob.Error) :=
  globs.findSome? fun glob =>
    match Glob.parse glob with
    | .ok _ => none
    | .error error => some (glob, error)

/-- The first problem of settings, if they have one. -/
def problem? (s : Settings) : Option Problem :=
  if s.scan.maxSignatures = 0 then some .noSignatures
  else
    match s.scan.ignoreExtensions.find? fun e => !isExtension e with
    | some extension => some (.extensionWithoutPoint extension)
    | none => (invalidGlob? s.scan.exclude).map fun (glob, error) => .invalidGlob glob error

/-- The settings that a text in TOML writes. -/
def ofToml? (s : String) : Option Settings :=
  (Document.Toml.parse? s).bind (ofValue? .ignored)

end Settings

/-- Why settings cannot be had. -/
inductive SettingsError
  /-- The file cannot be read, for a reason given in words. -/
  | unreadable (path : RawText) (reason : String)
  | malformed
  | unusable (problem : Settings.Problem)
  deriving DecidableEq, Repr

/-- The text of an error. What the reader of TOML says of a malformed file stands as a mark. -/
def SettingsError.message : SettingsError → String
  | .unreadable path reason => "Failed to read config file " ++ path.shown ++ ": " ++ reason
  | .malformed => "Failed to parse config: <toml error>"
  | .unusable problem => "Invalid config: " ++ problem.message

/-- The settings that a text in TOML writes. -/
def Settings.parse (s : String) : Except SettingsError Settings :=
  match ofToml? s with
  | some settings => .ok settings
  | none => .error .malformed

/-- Settings that pass all checks. -/
def Settings.check (s : Settings) : Except SettingsError Unit :=
  match s.problem? with
  | some problem => .error (.unusable problem)
  | none => .ok ()

end CodeOutline
