import CodeOutline.Command.Template
import CodeOutline.Proofs.Document.Toml.Lines
import CodeOutline.Settings.Check

/-! # What the first settings file says

The template of a new settings file says the default settings with one glob, for generated files.
Its statements are read one after the other; the rest of it are notes.
-/

namespace CodeOutline.Command

open Document Document.Toml

/-- The glob of the template. -/
def generatedGlob : String := "**/generated/**"

/-! ## Drafts of the template -/

def scanEntries : Entries :=
  [("exclude", .value (.list [.text generatedGlob])), ("max_file_size", .value (.integer 102400)),
    ("max_signatures", .value (.integer 25)), ("respect_gitignore", .value (.bool false))]

/-- The first table is open and has some of its entries. -/
def scanDraft (n : Nat) : Toml.Draft := ⟨[], ["scan"], false, scanEntries.take n⟩

/-- The first table is finished, and the second one is open. -/
def extensionsDraft : Toml.Draft :=
  ⟨[("scan", .table .header scanEntries)], ["languages", "extensions"], false, []⟩

/-- The last table is open. -/
def patternsDraft : Toml.Draft :=
  ⟨[("scan", .table .header scanEntries),
      ("languages", .table .implied [("extensions", .table .header [])])],
    ["languages", "patterns"], false, []⟩

/-! ## Statements of the template -/

theorem toList_unlines_singleton {line : String} {cs : List Char} (h : line.toList = cs) :
    (Text.unlines [line]).toList = cs ++ ['\n'] := by
  rw [Text.toList_unlines_cons, h]
  rfl

theorem reads_scanHeader : Reads ["[scan]"] .empty (scanDraft 0) :=
  reads_of_chars (toList_unlines_singleton String.toList_ofList) fun _ _ => rfl

theorem reads_exclude :
    Reads ["exclude = [", "    \"**/generated/**\",", "]"] (scanDraft 0) (scanDraft 1) := by
  refine reads_of_chars (Text.toList_unlines_cons _ _) fun fuel rest => ?_
  rw [Text.toList_unlines_cons, toList_unlines_singleton String.toList_ofList,
    String.toList_ofList, String.toList_ofList]
  rfl

theorem reads_maxFileSize : Reads ["max_file_size = 102400"] (scanDraft 1) (scanDraft 2) :=
  reads_of_chars (toList_unlines_singleton String.toList_ofList) fun _ _ => rfl

theorem reads_maxSignatures : Reads ["max_signatures = 25"] (scanDraft 2) (scanDraft 3) :=
  reads_of_chars (toList_unlines_singleton String.toList_ofList) fun _ _ => rfl

theorem reads_respectGitignore : Reads ["respect_gitignore = false"] (scanDraft 3) (scanDraft 4) :=
  reads_of_chars (toList_unlines_singleton String.toList_ofList) fun _ _ => rfl

theorem reads_extensionsHeader : Reads ["[languages.extensions]"] (scanDraft 4) extensionsDraft :=
  reads_of_chars (toList_unlines_singleton String.toList_ofList) fun _ _ => rfl

theorem reads_patternsHeader : Reads ["[languages.patterns]"] extensionsDraft patternsDraft :=
  reads_of_chars (toList_unlines_singleton String.toList_ofList) fun _ _ => rfl

/-- The whole template leads to its last draft, with notes before and after every statement. -/
theorem reads_template : Reads templateLines .empty patternsDraft := by
  rw [templateLines]
  repeat refine .note (by rw [String.toList_ofList]; rfl) ?_
  refine reads_scanHeader.append ?_
  repeat refine .note (by rw [String.toList_ofList]; rfl) ?_
  refine reads_exclude.append ?_
  repeat refine .note (by rw [String.toList_ofList]; rfl) ?_
  refine reads_maxFileSize.append ?_
  repeat refine .note (by rw [String.toList_ofList]; rfl) ?_
  refine reads_maxSignatures.append ?_
  repeat refine .note (by rw [String.toList_ofList]; rfl) ?_
  refine reads_respectGitignore.append ?_
  repeat refine .note (by rw [String.toList_ofList]; rfl) ?_
  refine reads_extensionsHeader.append ?_
  repeat refine .note (by rw [String.toList_ofList]; rfl) ?_
  refine reads_patternsHeader.append ?_
  repeat refine .note (by rw [String.toList_ofList]; rfl) ?_
  exact Reads.refl patternsDraft

theorem parse_template : Settings.parse template =
    .ok { Settings.default with scan.exclude := [generatedGlob] } := by
  have hm : (Text.unlines templateLines).toList.head? ≠ some '\ufeff' := by
    rw [templateLines, Text.toList_unlines_cons, String.toList_ofList]
    decide
  rw [Settings.parse, Settings.ofToml?, template, parse?_unlines reads_template hm]
  rfl

end CodeOutline.Command
