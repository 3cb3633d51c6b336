import CodeOutline.Command.Arguments
import CodeOutline.Command.Failure
import CodeOutline.Command.Template
import CodeOutline.Report.Compact
import CodeOutline.Report.Exchange
import CodeOutline.Report.Markdown
import CodeOutline.Text.Padding
import CodeOutline.Volume.Edit

/-! # The command

What the command does for its arguments: what it prints, how it ends, and what becomes of the files.
-/

namespace CodeOutline.Command

/-- How a run of the command ends. -/
structure Outcome where
  code : Nat
  output : String
  /-- What is said about a failure. -/
  error : String
  /-- The files afterwards. -/
  volume : Volume

/-- What a run of the command acts on. -/
structure World where
  /-- What is printed so far. -/
  output : String
  volume : Volume

/-- What a run does, one step after the other. A failure takes back nothing that is done. -/
abbrev Action := ExceptT Failure (StateM World)

def print (text : String) : Action Unit :=
  modify fun w => { w with output := w.output ++ text }

def writeFile (env : Environment) (path : RawText) (content : ByteArray) : Action Unit := do
  let (v, error?) := (← get).volume.write env.cwd path content
  modify fun w => { w with volume := v }
  match error? with
  | some error => throw ⟨error.message, []⟩
  | none => return

/-- The settings from where they are. -/
def loadSettings (v : Volume) (env : Environment) (source : SettingsSource) :
    Except Failure Settings :=
  match source.path? with
  | none => .ok .default
  | some path =>
    match Settings.ofFile v env path with
    | .ok s => .ok s
    | .error error => .error ⟨"Failed to load config: " ++ path.shown, error.causes⟩

/-- The settings with what the arguments change. -/
def ScanArguments.apply (a : ScanArguments) (s : Settings) : Settings :=
  { s with scan.maxSignatures := a.maxSignatures.getD s.scan.maxSignatures
           scan.exclude := s.scan.exclude ++ a.exclude }

/-- Writes a report. One that cannot be written to the end is written as far as it goes. -/
def Format.write (f : Format) (r : Report) : Action Unit :=
  match f with
  | .markdown => print r.markdownText
  | .json =>
    match r.jsonText with
    | .ok text => print text
    | .error start => do
      print start
      throw ⟨"path contains invalid UTF-8 characters", []⟩
  | .compact => print r.compactText

/-- The settings for a scan, checked. -/
def scanSettings (v : Volume) (env : Environment) (root : RawText) (a : ScanArguments)
    (named : Option RawText) : Except Failure Settings := do
  let settings := a.apply (← loadSettings v env (SettingsSource.resolve v env root named))
  match settings.check with
  | .ok _ => return settings
  | .error error => throw ⟨"Config validation failed", error.causes⟩

/-- Scans a directory. -/
def scan (v : Volume) (env : Environment) (a : ScanArguments) (named : Option RawText) :
    Except Failure Report := do
  let root := Path.absolute env.cwd (a.path.getD ".")
  if !v.isDirectory env.cwd root then throw ⟨"Directory '" ++ root.shown ++ "' does not exist.", []⟩
  let settings ← scanSettings v env root a named
  match Scanner.ofSettings v env root settings with
  | .ok scanner => return scanner.scan v env
  | .error error => throw ⟨"Failed to set up scanner", error.causes⟩

/-- The table of languages, with their families and extensions. -/
def languagesText (r : Registry) : String :=
  let row (language family extensions : String) : String :=
    Text.pad 12 .left none language ++ " " ++ Text.pad 18 .left none family ++ " " ++ extensions
  Text.unlines (["Supported languages:", "", row "Language" "Family" "Extensions",
      Text.repeated 60 "-"] ++
    r.rules.map (fun rule => row rule.language.name rule.family.name
      (", ".intercalate (r.extensionsFor rule.language))) ++
    ["", "Add extensions or replace patterns in docscan.toml, e.g.:", "  [languages.extensions]",
      "  \".pyi\" = \"python\""])

/-- Lists the languages of the settings for the working directory. -/
def languages (v : Volume) (env : Environment) (named : Option RawText) :
    Except Failure String := do
  let settings ← loadSettings v env (SettingsSource.resolve v env "." named)
  match Registry.ofSettings settings.languages with
  | .ok registry => return languagesText registry
  | .error error => throw ⟨"Invalid [languages] config", error.causes⟩

/-- The name of a new settings file. -/
def newFileName : RawText := "docscan.toml"

def initText : String :=
  Text.unlines ["Created docscan.toml", "", "Next steps:",
    "  1. Adjust [scan] limits and ignore lists for your project",
    "  2. Run: docscan > PROJECT_OVERVIEW.md"]

/-- Writes a new settings file in the working directory. One that is there is kept, unless the new
one is forced. -/
def init (env : Environment) (force : Bool) : Action Unit := do
  if (← get).volume.has env.cwd newFileName && !force then
    throw ⟨"Configuration file already exists at " ++ newFileName.shown ++
      ". Use --force to overwrite.", []⟩
  writeFile env newFileName template.toUTF8
  print initText

def versionText : String := "docscan 0.1.0\n"

def helpText : String :=
  Text.unlines ["Summarize a source tree (file tree and function signatures) for documentation",
    "", "Usage: docscan [OPTIONS] [PATH]", "       docscan <COMMAND>", "",
    "Commands:", "  scan       Scan a directory (the default when no subcommand is given)",
    "  languages  List supported languages, their extensions and pattern families",
    "  init       Initialize configuration file", "",
    "Options:", "  -v, --verbose                          Enable verbose output",
    "  -c, --config <CONFIG>                  Path to configuration file",
    "  -f, --format <FORMAT>                  Output format: markdown, json or compact",
    "      --max-signatures <MAX_SIGNATURES>  Maximum signatures listed per file",
    "  -e, --exclude <EXCLUDE>                Exclude patterns (can be specified multiple times)",
    "      --force                            Overwrite existing config (init)",
    "  -h, --help                             Print help",
    "  -V, --version                          Print version"]

def misuseText : String :=
  "error: the arguments cannot be used. For more information, try '--help'."

/-- What is done for an invocation. -/
def perform (env : Environment) (i : Invocation) : Action Unit := do
  match i.task with
  | .scan a => a.format.write (← ofExcept (scan (← get).volume env a i.settings))
  | .languages => print (← ofExcept (languages (← get).volume env i.settings))
  | .init force => init env force

/-- How an action ends. -/
def Action.outcome (a : Action Unit) (v : Volume) : Outcome :=
  match a.run.run ⟨"", v⟩ with
  | (.ok (), w) => ⟨0, w.output, "", w.volume⟩
  | (.error failure, w) => ⟨1, w.output, failure.text, w.volume⟩

/-- Runs the command. -/
def run (v : Volume) (env : Environment) (arguments : List RawText) : Outcome :=
  match Invocation.ofArguments arguments with
  | .error .misuse => ⟨2, "", misuseText, v⟩
  | .error .help => ⟨0, helpText, "", v⟩
  | .error .version => ⟨0, versionText, "", v⟩
  | .ok i => (perform env i).outcome v

end CodeOutline.Command
