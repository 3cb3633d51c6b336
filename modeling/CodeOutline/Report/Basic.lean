import CodeOutline.Language
import CodeOutline.Signature
import CodeOutline.Text.Raw

/-! # Reports

What a scan of a directory finds: the listing of the tree, the files with signatures, and the
files of a known language that could not be read as source text.
-/

namespace CodeOutline

/-- What an entry of the listing is, after following links. -/
inductive EntryKind
  | directory
  | file
  deriving DecidableEq, Repr

/-- A line of the listing. The entries of the scanned directory itself have depth 1. -/
structure TreeEntry where
  depth : Nat
  /-- The name as it is shown. -/
  name : String
  kind : EntryKind
  deriving DecidableEq, Repr

/-- The signatures found in one file, in the order of the source text. -/
structure FileSummary where
  /-- Relative to the scanned directory. -/
  path : RawText
  language : Language
  signatures : List Signature
  deriving DecidableEq, Repr

/-- A summary that keeps at most `cap` signatures, the first ones. -/
def FileSummary.capped (path : RawText) (language : Language) (signatures : List Signature)
    (cap : Nat) : FileSummary :=
  ⟨path, language, signatures.take cap⟩

/-- Why a file of a known language has no summary. -/
inductive SkipReason
  | tooLarge (size limit : Nat)
  | unreadable (message : String)
  | extractionFailed (message : String)
  deriving DecidableEq, Repr

def SkipReason.message : SkipReason → String
  | .tooLarge size limit =>
    "too large (" ++ toString size ++ " bytes, limit " ++ toString limit ++ ")"
  | .unreadable message => "unreadable: " ++ message
  | .extractionFailed message => "extraction failed: " ++ message

structure SkippedFile where
  /-- Relative to the scanned directory. -/
  path : RawText
  reason : SkipReason
  deriving DecidableEq, Repr

structure Report where
  /-- The scanned directory, as it was named. -/
  root : RawText
  tree : List TreeEntry
  files : List FileSummary
  skipped : List SkippedFile
  deriving DecidableEq, Repr

namespace Report

/-- The number of signatures in all files together. -/
def signatureCount (r : Report) : Nat :=
  r.files.foldl (fun n f => n + f.signatures.length) 0

end Report

end CodeOutline
