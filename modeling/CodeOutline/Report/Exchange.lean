import CodeOutline.Report.Basic
import CodeOutline.Document.Json.Draft
import CodeOutline.Document.Json.Parser

/-! # Reports as documents

The exchange form of reports and of their parts, and its readers. The reason of a skipped file
stands in the entry of the file itself, its kind under `reason`. The paths of a report are raw, so a
report is a draft that may not be written to the end.
-/

namespace CodeOutline

open Document

namespace Language

def toValue (l : Language) : Value := .text l.name

def ofValue? (v : Value) : Option Language := v.asName.bind ofName?

end Language

namespace Family

def toValue (f : Family) : Value := .text f.name

def ofValue? (v : Value) : Option Family := v.asName.bind ofName?

end Family

namespace Signature

def toValue (s : Signature) : Value :=
  .table [("name", .text s.name), ("arguments", .text s.arguments), ("return_type", .text s.result)]

def ofValue? (v : Value) : Option Signature := do
  guard (v.isRecord .refused 3)
  let name ← v.required 0 "name" Value.asText
  let arguments ← v.required 1 "arguments" Value.asText
  let result ← v.required 2 "return_type" Value.asText
  return ⟨name, arguments, result⟩

end Signature

namespace EntryKind

def name : EntryKind → String
  | .directory => "directory"
  | .file => "file"

def toValue (k : EntryKind) : Value := .text k.name

def ofValue? (v : Value) : Option EntryKind :=
  match v.asName with
  | some "directory" => some .directory
  | some "file" => some .file
  | _ => none

end EntryKind

namespace TreeEntry

def toValue (e : TreeEntry) : Value :=
  .table [("depth", .integer e.depth), ("name", .text e.name), ("kind", e.kind.toValue)]

def ofValue? (v : Value) : Option TreeEntry := do
  guard (v.isRecord .refused 3)
  let depth ← v.required 0 "depth" Value.asCount
  let name ← v.required 1 "name" Value.asText
  let kind ← v.required 2 "kind" EntryKind.ofValue?
  return ⟨depth, name, kind⟩

end TreeEntry

namespace FileSummary

def toDraft (f : FileSummary) : Draft :=
  .table [("relative_path", .raw f.path), ("language", .value f.language.toValue),
    ("signatures", .value (.list (f.signatures.map Signature.toValue)))]

def ofValue? (v : Value) : Option FileSummary := do
  guard (v.isRecord .refused 3)
  let path ← v.required 0 "relative_path" Value.asText
  let language ← v.required 1 "language" Language.ofValue?
  let signatures ← v.required 2 "signatures" (Value.asList Signature.ofValue?)
  return ⟨path, language, signatures⟩

end FileSummary

namespace SkipReason

/-- The entries of a reason: its kind, then what belongs to it. -/
def toEntries : SkipReason → List (String × Value)
  | .tooLarge size limit =>
    [("reason", .text "too_large"), ("size", .integer size), ("limit", .integer limit)]
  | .unreadable message => [("reason", .text "unreadable"), ("message", .text message)]
  | .extractionFailed message =>
    [("reason", .text "extraction_failed"), ("message", .text message)]

/-- The kinds of reasons, in their order of declaration. -/
inductive Kind
  | tooLarge | unreadable | extractionFailed

def Kind.ofName? : String → Option Kind
  | "too_large" => some .tooLarge
  | "unreadable" => some .unreadable
  | "extraction_failed" => some .extractionFailed
  | _ => none

/-- The reason of a kind, its parts read from a record. -/
def ofParts? (kind : Kind) (parts : Value) : Option SkipReason :=
  match kind with
  | .tooLarge => do
    guard (parts.isRecord .refused 2)
    let size ← parts.required 0 "size" Value.asCount
    let limit ← parts.required 1 "limit" Value.asCount
    return .tooLarge size limit
  | .unreadable => do
    guard (parts.isRecord .refused 1)
    return .unreadable (← parts.required 0 "message" Value.asText)
  | .extractionFailed => do
    guard (parts.isRecord .refused 1)
    return .extractionFailed (← parts.required 0 "message" Value.asText)

/-- A reason on its own: a table with its kind under `reason`, or a list with its kind first. -/
def ofValue? (v : Value) : Option SkipReason :=
  match v with
  | .table _ => do
    let kind ← v.required 0 "reason" Value.asText
    ofParts? (← Kind.ofName? kind) v
  | .list (kind :: parts) => do
    ofParts? (← kind.asText.bind Kind.ofName?) (.list parts)
  | _ => none

end SkipReason

namespace SkippedFile

def toDraft (f : SkippedFile) : Draft :=
  .table (("relative_path", .raw f.path) :: f.reason.toEntries.map fun e => (e.1, .value e.2))

/-- The kind of the reason in the entry of a skipped file: its name, or its place in the order of
declaration. -/
def reasonKind? : Value → Option SkipReason.Kind
  | .text s => SkipReason.Kind.ofName? s
  | .integer 0 => some .tooLarge
  | .integer 1 => some .unreadable
  | .integer 2 => some .extractionFailed
  | _ => none

/-- Skipped files are written as tables only, since a reason shares the table of its file. -/
def ofValue? (v : Value) : Option SkippedFile :=
  match v with
  | .table _ => do
    let path ← v.required 0 "relative_path" Value.asText
    let kind ← v.required 0 "reason" reasonKind?
    return ⟨path, ← SkipReason.ofParts? kind v⟩
  | _ => none

end SkippedFile

namespace Report

def toDraft (r : Report) : Draft :=
  .table [("root", .raw r.root), ("tree", .value (.list (r.tree.map TreeEntry.toValue))),
    ("files", .list (r.files.map FileSummary.toDraft)),
    ("skipped", .list (r.skipped.map SkippedFile.toDraft))]

def ofValue? (v : Value) : Option Report := do
  guard (v.isRecord .refused 4)
  let root ← v.required 0 "root" Value.asText
  let tree ← v.required 1 "tree" (Value.asList TreeEntry.ofValue?)
  let files ← v.required 2 "files" (Value.asList FileSummary.ofValue?)
  let skipped ← v.required 3 "skipped" (Value.asList SkippedFile.ofValue?)
  return ⟨root, tree, files, skipped⟩

/-- The report as an indented JSON text with a line end, or else as much of it as stands before the
first path that is no text. -/
def jsonText (r : Report) : Except String String :=
  r.toDraft.prettyText.map (· ++ "\n")

/-- The report that a JSON text writes. -/
def ofJson? (s : String) : Option Report :=
  (Json.parse? s).bind ofValue?

end Report

end CodeOutline
