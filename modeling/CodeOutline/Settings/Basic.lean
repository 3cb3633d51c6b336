import CodeOutline.Dictionary

/-! # Settings

What a settings file can say, with a default for everything.
-/

namespace CodeOutline

/-- Settings of the walk through a directory and of the extraction. -/
structure ScanSettings where
  /-- Names of directories that are left out with all that is in them. -/
  ignoreDirs : List String
  /-- Extensions, with their points, of files that are left out. -/
  ignoreExtensions : List String
  /-- Names of files that are left out. -/
  ignoreFiles : List String
  /-- Globs for the paths of files that are listed but not read. -/
  exclude : List String
  /-- Files of this many bytes or more are listed but not read. -/
  maxFileSize : Nat
  /-- The signatures kept of one file. -/
  maxSignatures : Nat
  /-- Whether ignore files are honoured. -/
  respectGitignore : Bool
  deriving DecidableEq, Repr

namespace ScanSettings

def defaultIgnoreDirs : List String :=
  [".git", ".vscode", ".idea", "node_modules", "dist", "build", "coverage", "target", "vendor",
    "__pycache__", "venv", ".env", ".gemini", ".agent", "bin", "obj", "out", "debug", "release"]

def defaultIgnoreExtensions : List String :=
  [".png", ".jpg", ".jpeg", ".gif", ".ico", ".svg", ".woff", ".woff2", ".ttf", ".eot", ".mp4",
    ".webm", ".mp3", ".wav", ".zip", ".tar", ".gz", ".pyc", ".exe", ".dll", ".so", ".dylib",
    ".lock", ".log", ".map", ".class", ".o", ".obj"]

def defaultIgnoreFiles : List String := [".DS_Store"]

def defaultMaxFileSize : Nat := 102400

def defaultMaxSignatures : Nat := 25

def default : ScanSettings where
  ignoreDirs := defaultIgnoreDirs
  ignoreExtensions := defaultIgnoreExtensions
  ignoreFiles := defaultIgnoreFiles
  exclude := []
  maxFileSize := defaultMaxFileSize
  maxSignatures := defaultMaxSignatures
  respectGitignore := false

end ScanSettings

/-- Additions to the languages that are built in. -/
structure LanguageSettings where
  /-- The name of the language for an extension. -/
  extensions : Dictionary String
  /-- The pattern that takes the place of the built-in one, by the name of a language. -/
  patterns : Dictionary String
  deriving DecidableEq, Repr

def LanguageSettings.default : LanguageSettings := ⟨.empty, .empty⟩

structure Settings where
  scan : ScanSettings
  languages : LanguageSettings
  deriving DecidableEq, Repr

def Settings.default : Settings := ⟨.default, .default⟩

/-- An extension, with its point. -/
def isExtension (s : String) : Bool :=
  s.toList.head? == some '.'

end CodeOutline
