import CodeOutline.Registry
import CodeOutline.Settings.Check
import CodeOutline.Walk

/-! # Scans

A scanner is made for a directory. Its scan lists what is below the directory, and accounts for each
listed file of a known language.
-/

namespace CodeOutline

/-- Why there is no scanner. -/
inductive ScanError
  | rootMissing (root : RawText)
  | invalidGlob (glob : String) (error : Glob.Error)
  | registry (error : RegistryError)
  deriving DecidableEq, Repr

def ScanError.message : ScanError → String
  | .rootMissing root => "Directory '" ++ root.shown ++ "' does not exist"
  | .invalidGlob glob error => "Invalid exclude pattern '" ++ glob ++ "': " ++ error.message
  | .registry error => error.message

structure Scanner where
  /-- The path of the directory, an absolute one. -/
  root : RawText
  settings : ScanSettings
  registry : Registry
  /-- The globs for files that are not read. -/
  exclude : List Glob

/-- What a scanner is made from. What is left open has a default. -/
structure ScanPlan where
  /-- The directory, or else the working directory. -/
  root : Option RawText
  settings : Option ScanSettings
  registry : Option Registry
  /-- Globs beside those of the settings. -/
  exclude : List String

namespace Scanner

/-- The globs that texts write, or the first text that writes none. -/
def parseGlobs (globs : List String) : Except ScanError (List Glob) :=
  globs.mapM fun glob =>
    match Glob.parse glob with
    | .ok g => .ok g
    | .error error => .error (.invalidGlob glob error)

/-- The scanner of a plan, for a directory that is there. -/
def build (v : Volume) (env : Environment) (plan : ScanPlan) : Except ScanError Scanner := do
  let root := Path.join env.cwd (plan.root.getD ".")
  if !v.isDirectory env.cwd root then throw (.rootMissing root)
  let settings := plan.settings.getD .default
  let exclude ← parseGlobs (settings.exclude ++ plan.exclude)
  return ⟨root, settings, plan.registry.getD .builtin, exclude⟩

/-- The scanner of a directory under settings. -/
def ofSettings (v : Volume) (env : Environment) (root : RawText) (s : Settings) :
    Except ScanError Scanner :=
  match Registry.ofSettings s.languages with
  | .ok registry => build v env ⟨some root, some s.scan, some registry, []⟩
  | .error error => .error (.registry error)

/-- The language of a file, by the extension of its name. -/
def languageOf? (s : Scanner) (name : RawText) : Option Language :=
  (Path.extension? name).bind s.registry.languageFor?

/-- A path that is no text matches no glob. -/
def isExcluded (s : Scanner) (path : RawText) : Bool :=
  match path.text? with
  | some path => s.exclude.any (·.isMatch path)
  | none => false

end Scanner

/-- What a scan has to say about a file of a known language. -/
inductive Finding
  | summary (f : FileSummary)
  | skipped (f : SkippedFile)

namespace Finding

def summary? : Finding → Option FileSummary
  | .summary f => some f
  | .skipped _ => none

def skipped? : Finding → Option SkippedFile
  | .summary _ => none
  | .skipped f => some f

end Finding

namespace Scanner

/-- The finding for the content of a file, unless there is nothing in it. -/
def findingIn (s : Scanner) (path : RawText) (l : Language) (content : ByteArray) :
    Option Finding :=
  match s.registry.extract l (Utf8.replacedText content.data.toList) with
  | .error error => some (.skipped ⟨path, .extractionFailed error.message⟩)
  | .ok [] => none
  | .ok signatures => some (.summary (.capped path l signatures s.settings.maxSignatures))

/-- The finding for a file in a language. The size of a file is known before it is read. -/
def findingFor (s : Scanner) (path : RawText) (l : Language) :
    Except FileError Target → Option Finding
  | .ok ⟨.file content, refusal⟩ =>
    let limit := s.settings.maxFileSize
    if limit ≤ content.size then some (.skipped ⟨path, .tooLarge content.size limit⟩)
    else
      match refusal with
      | some error => some (.skipped ⟨path, .unreadable error.message⟩)
      | none => s.findingIn path l content
  | .ok _ => some (.skipped ⟨path, .unreadable "not a regular file"⟩)
  | .error error => some (.skipped ⟨path, .unreadable error.message⟩)

/-- The finding for an entry of the listing. Files of no known language and excluded files have
none. -/
def examine (s : Scanner) (e : Entry) : Option Finding :=
  match e.kind, (e.names.getLast?.bind s.languageOf?) with
  | .file, some l =>
    let path := Path.ofParts e.names
    if s.isExcluded path then none else s.findingFor path l e.target
  | _, _ => none

/-- The line of the listing for an entry. -/
def treeEntry (e : Entry) : TreeEntry :=
  ⟨e.names.length, (e.names.getLast?.getD "").shown, e.kind⟩

/-- The entries below the directory of a scanner. -/
def entries (s : Scanner) (v : Volume) (env : Environment) : List Entry :=
  match v.find env.cwd s.root with
  | .ok base => Walk.entries ⟨v, s.root, base, s.settings⟩ env
  | .error _ => []

/-- The report on listed entries. -/
def report (s : Scanner) (es : List Entry) : Report :=
  let findings := es.filterMap s.examine
  ⟨s.root, es.map treeEntry, findings.filterMap Finding.summary?,
    findings.filterMap Finding.skipped?⟩

/-- The report on the directory of a scanner. -/
def scan (s : Scanner) (v : Volume) (env : Environment) : Report :=
  s.report (s.entries v env)

end Scanner

end CodeOutline
