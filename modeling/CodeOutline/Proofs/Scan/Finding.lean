import CodeOutline.Proofs.Registry
import CodeOutline.Proofs.Text.Utf8
import CodeOutline.Scan

/-! # Findings

What a scan finds in one file depends on the language of its name, on the globs, and on what its
path leads to. Of nine ways to end exactly one is taken.
-/

namespace CodeOutline

/-- The path of the file that a finding is about. -/
def Finding.path : Finding → RawText
  | .summary f => f.path
  | .skipped f => f.path

namespace Scanner

/-- A file is to be read as one of a language. -/
structure Reads (s : Scanner) (path name : RawText) (l : Language) : Prop where
  language : s.languageOf? name = some l
  included : s.isExcluded path = false

/-- A file is read, and this is its content. -/
structure Opens (s : Scanner) (path name : RawText) (target : Except FileError Target) (l : Language)
    (content : ByteArray) : Prop extends s.Reads path name l where
  target_eq : target = .ok ⟨.file content, none⟩
  small : content.size < s.settings.maxFileSize

/-- What a scan finds in a file, by the name of the file and by what its path leads to. -/
inductive Verdict (s : Scanner) (path name : RawText) (target : Except FileError Target) :
    Option Finding → Prop
  | unknown : s.languageOf? name = none → Verdict s path name target none
  | excluded : s.isExcluded path = true → Verdict s path name target none
  | irregular (l : Language) (t : Target) : s.Reads path name l → target = .ok t →
    t.node.isFile = false →
      Verdict s path name target (some (.skipped ⟨path, .unreadable "not a regular file"⟩))
  | lost (l : Language) (error : FileError) : s.Reads path name l → target = .error error →
    Verdict s path name target (some (.skipped ⟨path, .unreadable error.message⟩))
  | tooLarge (l : Language) (content : ByteArray) (refusal : Option FileError) :
    s.Reads path name l → target = .ok ⟨.file content, refusal⟩ →
      s.settings.maxFileSize ≤ content.size →
        Verdict s path name target
          (some (.skipped ⟨path, .tooLarge content.size s.settings.maxFileSize⟩))
  | refused (l : Language) (content : ByteArray) (error : FileError) : s.Reads path name l →
    target = .ok ⟨.file content, some error⟩ → content.size < s.settings.maxFileSize →
      Verdict s path name target (some (.skipped ⟨path, .unreadable error.message⟩))
  | binary (l : Language) (content : ByteArray) : s.Opens path name target l content →
    0 ∈ content.data.toList →
      Verdict s path name target
        (some (.skipped ⟨path, .extractionFailed ExtractError.binaryContent.message⟩))
  | empty (l : Language) (content : ByteArray) : s.Opens path name target l content →
    0 ∉ content.data.toList →
      s.registry.extract l (Utf8.replacedText content.data.toList) = .ok [] →
        Verdict s path name target none
  | summary (l : Language) (content : ByteArray) (signatures : List Signature) :
    s.Opens path name target l content → 0 ∉ content.data.toList →
      s.registry.extract l (Utf8.replacedText content.data.toList) = .ok signatures →
        signatures ≠ [] →
          Verdict s path name target
            (some (.summary (.capped path l signatures s.settings.maxSignatures)))

variable {s : Scanner} {path name : RawText} {up : List RawText} {l : Language}
  {target : Except FileError Target} {content : ByteArray} {found : Option Finding}
  {languages : LanguageSettings}

theorem path_of_findingIn {f : Finding} (h : s.findingIn path l content = some f) :
    f.path = path := by
  unfold findingIn at h
  split at h <;> cases h <;> rfl

theorem path_of_findingFor {f : Finding} (h : s.findingFor path l target = some f) :
    f.path = path := by
  unfold findingFor at h
  split at h
  · dsimp only at h
    split at h
    · cases h
      rfl
    split at h
    · cases h
      rfl
    · exact path_of_findingIn h
  · cases h
    rfl
  · cases h
    rfl

theorem path_of_examine {e : Entry} {f : Finding} (h : s.examine e = some f) :
    f.path = Path.ofParts e.names := by
  unfold examine at h
  split at h
  · dsimp only at h
    split at h
    · cases h
    · exact path_of_findingFor h
  · cases h

theorem examine_concat (s : Scanner) (up : List RawText) (name : RawText)
    (target : Except FileError Target) : s.examine ⟨up ++ [name], .file, target⟩ =
      match s.languageOf? name with
      | some l =>
        if s.isExcluded (Path.ofParts (up ++ [name])) then none
        else s.findingFor (Path.ofParts (up ++ [name])) l target
      | none => none := by
  rw [examine, List.getLast?_concat, Option.bind_some]
  cases s.languageOf? name <;> rfl

end Scanner

end CodeOutline
