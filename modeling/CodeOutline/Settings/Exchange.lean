import CodeOutline.Document.Value
import CodeOutline.Settings.Basic

/-! # Settings as documents

The readers of settings, for values from JSON and from TOML alike, and the exchange form of
settings. Every field may be missing and then has its default.
-/

namespace CodeOutline

open Document

/-- A dictionary of texts as a table. -/
def Dictionary.toValue (d : Dictionary String) : Value :=
  .table (d.entries.map fun e => (e.1, .text e.2))

/-- A table of texts. -/
def Dictionary.ofValue? (v : Value) : Option (Dictionary String) :=
  (v.asTable Value.asText).map Dictionary.ofList

/-- A list of texts. -/
def textsOfValue? (v : Value) : Option (List String) :=
  v.asList Value.asText

def textsToValue (ts : List String) : Value :=
  .list (ts.map Value.text)

namespace LanguageSettings

def toValue (s : LanguageSettings) : Value :=
  .table [("extensions", s.extensions.toValue), ("patterns", s.patterns.toValue)]

def ofValue? (surplus : Surplus) (v : Value) : Option LanguageSettings := do
  guard (v.isRecord surplus 2)
  let extensions ← v.optional 0 "extensions" .empty Dictionary.ofValue?
  let patterns ← v.optional 1 "patterns" .empty Dictionary.ofValue?
  return ⟨extensions, patterns⟩

end LanguageSettings

namespace ScanSettings

def toValue (s : ScanSettings) : Value :=
  .table [("ignore_dirs", textsToValue s.ignoreDirs),
    ("ignore_extensions", textsToValue s.ignoreExtensions),
    ("ignore_files", textsToValue s.ignoreFiles), ("exclude", textsToValue s.exclude),
    ("max_file_size", .integer s.maxFileSize), ("max_signatures", .integer s.maxSignatures),
    ("respect_gitignore", .bool s.respectGitignore)]

def ofValue? (surplus : Surplus) (v : Value) : Option ScanSettings := do
  guard (v.isRecord surplus 7)
  let ignoreDirs ← v.optional 0 "ignore_dirs" defaultIgnoreDirs textsOfValue?
  let ignoreExtensions ←
    v.optional 1 "ignore_extensions" defaultIgnoreExtensions textsOfValue?
  let ignoreFiles ← v.optional 2 "ignore_files" defaultIgnoreFiles textsOfValue?
  let exclude ← v.optional 3 "exclude" [] textsOfValue?
  let maxFileSize ← v.optional 4 "max_file_size" defaultMaxFileSize Value.asCount
  let maxSignatures ← v.optional 5 "max_signatures" defaultMaxSignatures Value.asCount
  let respectGitignore ← v.optional 6 "respect_gitignore" false Value.asBool
  return ⟨ignoreDirs, ignoreExtensions, ignoreFiles, exclude, maxFileSize, maxSignatures,
    respectGitignore⟩

end ScanSettings

namespace Settings

def toValue (s : Settings) : Value :=
  .table [("scan", s.scan.toValue), ("languages", s.languages.toValue)]

def ofValue? (surplus : Surplus) (v : Value) : Option Settings := do
  guard (v.isRecord surplus 2)
  let scan ← v.optional 0 "scan" .default (ScanSettings.ofValue? surplus)
  let languages ← v.optional 1 "languages" .default (LanguageSettings.ofValue? surplus)
  return ⟨scan, languages⟩

end Settings

end CodeOutline
