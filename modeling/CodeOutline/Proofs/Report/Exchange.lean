import CodeOutline.Proofs.Document.Json.Draft
import CodeOutline.Proofs.Document.Value
import CodeOutline.Report.Exchange

/-! # Reports and their exchange form

A report is found again in its exchange form, with every entry of its lists in its place, and so in
its JSON text. All that is asked for is that its paths are texts and that its numbers have no more
than 64 bits.
-/

namespace CodeOutline

open Document

namespace Language

theorem ofValue?_toValue (l : Language) : ofValue? l.toValue = some l :=
  ofName?_name l

theorem exchangeable_toValue (l : Language) : l.toValue.Exchangeable :=
  .text l.name

end Language

namespace Signature

theorem ofValue?_toValue (s : Signature) : ofValue? s.toValue = some s := rfl

theorem exchangeable_toValue (s : Signature) : s.toValue.Exchangeable := by
  simp [toValue]

end Signature

namespace EntryKind

theorem ofValue?_toValue (k : EntryKind) : ofValue? k.toValue = some k := by
  cases k <;> rfl

theorem exchangeable_toValue (k : EntryKind) : k.toValue.Exchangeable :=
  .text k.name

end EntryKind

namespace TreeEntry

variable {e : TreeEntry}

theorem ofValue?_toValue (h : IsCount e.depth) : ofValue? e.toValue = some e := by
  change ((Value.asCount (.integer e.depth)).bind fun depth =>
    (EntryKind.ofValue? e.kind.toValue).bind fun kind => some ⟨depth, e.name, kind⟩) = some e
  rw [asCount_integer h, EntryKind.ofValue?_toValue]
  rfl

theorem exchangeable_toValue (h : IsCount e.depth) : e.toValue.Exchangeable := by
  simp [toValue, fitsInteger_count h, EntryKind.exchangeable_toValue]

end TreeEntry

namespace FileSummary

/-- The value of a summary, which it has if its path is a text. -/
def toValue (f : FileSummary) : Value :=
  .table [("relative_path", .text f.path.shown), ("language", f.language.toValue),
    ("signatures", .list (f.signatures.map Signature.toValue))]

theorem value?_toDraft (f : FileSummary) (h : f.path.IsText) :
    f.toDraft.value? = some f.toValue := by
  simp [toDraft, toValue, Draft.value?, Draft.entryValues?, h.text?_eq]

theorem ofValue?_toValue (f : FileSummary) (h : f.path.IsText) : ofValue? f.toValue = some f := by
  change ((Language.ofValue? f.language.toValue).bind fun language =>
    (Value.asList Signature.ofValue? (.list (f.signatures.map Signature.toValue))).bind
      fun signatures => some ⟨RawText.ofText f.path.shown, language, signatures⟩) = some f
  rw [Language.ofValue?_toValue, asList_map fun s _ => s.ofValue?_toValue, h.ofText_shown]
  rfl

theorem exchangeable_toValue (f : FileSummary) : f.toValue.Exchangeable := by
  simp [toValue, Language.exchangeable_toValue, Signature.exchangeable_toValue]

end FileSummary

/-- The numbers of a reason have 64 bits. -/
def SkipReason.Fits : SkipReason → Prop
  | .tooLarge size limit => IsCount size ∧ IsCount limit
  | .unreadable _ => True
  | .extractionFailed _ => True

instance : (r : SkipReason) → Decidable r.Fits
  | .tooLarge size limit => inferInstanceAs (Decidable (IsCount size ∧ IsCount limit))
  | .unreadable _ => inferInstanceAs (Decidable True)
  | .extractionFailed _ => inferInstanceAs (Decidable True)

namespace SkippedFile

variable {f : SkippedFile}

/-- The value of a skipped file, which it has if its path is a text. -/
def toValue (f : SkippedFile) : Value :=
  .table (("relative_path", .text f.path.shown) :: f.reason.toEntries)

theorem value?_toDraft (f : SkippedFile) (h : f.path.IsText) :
    f.toDraft.value? = some f.toValue := by
  have hp := h.text?_eq
  obtain ⟨path, reason⟩ := f
  cases reason <;>
    simp [toDraft, toValue, SkipReason.toEntries, Draft.value?, Draft.entryValues?, hp]

theorem ofValue?_toValue (h : f.reason.Fits) (ht : f.path.IsText) :
    ofValue? f.toValue = some f := by
  have hp := ht.ofText_shown
  obtain ⟨path, reason⟩ := f
  cases reason with
  | tooLarge size limit =>
    change (((Value.asCount (.integer size)).bind fun size =>
      (Value.asCount (.integer limit)).bind fun limit =>
        some (SkipReason.tooLarge size limit)).bind fun reason =>
          some (⟨RawText.ofText path.shown, reason⟩ : SkippedFile)) =
            some ⟨path, .tooLarge size limit⟩
    rw [asCount_integer h.1, asCount_integer h.2, hp]
    rfl
  | unreadable message =>
    change some (⟨RawText.ofText path.shown, .unreadable message⟩ : SkippedFile) = _
    rw [hp]
  | extractionFailed message =>
    change some (⟨RawText.ofText path.shown, .extractionFailed message⟩ : SkippedFile) = _
    rw [hp]

theorem exchangeable_toValue (h : f.reason.Fits) : f.toValue.Exchangeable := by
  obtain ⟨path, reason⟩ := f
  cases reason with
  | tooLarge size limit =>
    simp [toValue, SkipReason.toEntries, fitsInteger_count h.1, fitsInteger_count h.2]
  | unreadable message => simp [toValue, SkipReason.toEntries]
  | extractionFailed message => simp [toValue, SkipReason.toEntries]

end SkippedFile

namespace Report

/-- The numbers of a report have 64 bits. -/
structure Fits (r : Report) : Prop where
  depths : ∀ e ∈ r.tree, IsCount e.depth
  sizes : ∀ f ∈ r.skipped, f.reason.Fits

instance (r : Report) : Decidable r.Fits :=
  decidable_of_iff ((∀ e ∈ r.tree, IsCount e.depth) ∧ ∀ f ∈ r.skipped, f.reason.Fits)
    ⟨fun ⟨hd, hs⟩ => ⟨hd, hs⟩, fun ⟨hd, hs⟩ => ⟨hd, hs⟩⟩

/-- All paths of a report are texts. -/
structure IsText (r : Report) : Prop where
  root : r.root.IsText
  files : ∀ f ∈ r.files, f.path.IsText
  skipped : ∀ f ∈ r.skipped, f.path.IsText

variable {r : Report}

/-- The value of a report, which it has if its paths are texts. -/
def toValue (r : Report) : Value :=
  .table [("root", .text r.root.shown), ("tree", .list (r.tree.map TreeEntry.toValue)),
    ("files", .list (r.files.map FileSummary.toValue)),
    ("skipped", .list (r.skipped.map SkippedFile.toValue))]

theorem value?_toDraft (h : r.IsText) : r.toDraft.value? = some r.toValue := by
  have hfiles := Draft.value?_list fun f hf => FileSummary.value?_toDraft f (h.files f hf)
  have hskipped := Draft.value?_list fun f hf => SkippedFile.value?_toDraft f (h.skipped f hf)
  have hroot : (Draft.raw r.root).value? = some (.text r.root.shown) := by
    rw [Draft.value?, h.root.text?_eq]
    rfl
  have htree : (Draft.value (.list (r.tree.map TreeEntry.toValue))).value? =
      some (.list (r.tree.map TreeEntry.toValue)) := rfl
  rw [toDraft, Draft.value?, Draft.entryValues?_cons_eq hroot (Draft.entryValues?_cons_eq htree
    (Draft.entryValues?_cons_eq hfiles (Draft.entryValues?_cons_eq hskipped rfl)))]
  rfl

theorem ofValue?_toValue (h : r.Fits) (ht : r.IsText) : ofValue? r.toValue = some r := by
  change ((Value.asList TreeEntry.ofValue? (.list (r.tree.map TreeEntry.toValue))).bind fun tree =>
    (Value.asList FileSummary.ofValue? (.list (r.files.map FileSummary.toValue))).bind fun files =>
      (Value.asList SkippedFile.ofValue? (.list (r.skipped.map SkippedFile.toValue))).bind
        fun skipped => some ⟨RawText.ofText r.root.shown, tree, files, skipped⟩) = some r
  rw [asList_map fun e he => TreeEntry.ofValue?_toValue (h.depths e he),
    asList_map fun f hf => FileSummary.ofValue?_toValue f (ht.files f hf),
    asList_map fun f hf => SkippedFile.ofValue?_toValue (h.sizes f hf) (ht.skipped f hf),
    ht.root.ofText_shown]
  rfl

theorem exchangeable_toValue (h : r.Fits) : r.toValue.Exchangeable := by
  have htree : ∀ e ∈ r.tree, e.toValue.Exchangeable :=
    fun e he => TreeEntry.exchangeable_toValue (h.depths e he)
  have hskipped : ∀ f ∈ r.skipped, f.toValue.Exchangeable :=
    fun f hf => SkippedFile.exchangeable_toValue (h.sizes f hf)
  simp only [toValue, Value.exchangeable_table, List.forall_mem_cons, Value.exchangeable_text,
    Value.exchangeable_list, List.forall_mem_map]
  exact ⟨trivial, htree, fun f _ => f.exchangeable_toValue, hskipped, by simp⟩

theorem jsonText_eq (h : r.IsText) : r.jsonText = .ok (Json.prettyText r.toValue ++ "\n") := by
  rw [jsonText, Draft.prettyText_of_value? (value?_toDraft h)]
  rfl

theorem exists_jsonText_iff : (∃ text, r.jsonText = .ok text) ↔
    r.root.text?.isSome ∧ (∀ f ∈ r.files, f.path.text?.isSome) ∧
      ∀ f ∈ r.skipped, f.path.text?.isSome := by
  have hok : (∃ text, r.jsonText = .ok text) ↔ ∃ text, r.toDraft.prettyText = .ok text := by
    rw [jsonText]
    cases r.toDraft.prettyText <;> simp [Except.map]
  have hfile (f : FileSummary) (level : Nat) :
      none ∈ f.toDraft.indented level ↔ f.path.text? = none := by
    simp [FileSummary.toDraft, Draft.none_mem_indented_table, Draft.none_mem_indented_raw,
      Draft.none_notMem_indented_value]
  have hskipped (f : SkippedFile) (level : Nat) :
      none ∈ f.toDraft.indented level ↔ f.path.text? = none := by
    simp [SkippedFile.toDraft, Draft.none_mem_indented_table, Draft.none_mem_indented_raw,
      Draft.none_notMem_indented_value]
  rw [hok, Draft.exists_prettyText_iff]
  simp [toDraft, Draft.none_mem_indented_table, Draft.none_mem_indented_list,
    Draft.none_mem_indented_raw, Draft.none_notMem_indented_value, hfile, hskipped,
    Option.isSome_iff_ne_none]

/-- Nothing comes after the path of the directory if it is no text. -/
theorem jsonText_of_root (h : r.root.text? = none) :
    r.jsonText = .error "\x7b\n  \"root\": " := by
  have hstop : r.toDraft.indented 0 =
      Draft.plain ('\x7b' :: (Json.newline 1 ++ Json.quote "root" ++ [':', ' '])) ++ none ::
        Draft.indentedEntries 0 [("tree", .value (.list (r.tree.map TreeEntry.toValue))),
          ("files", .list (r.files.map FileSummary.toDraft)),
          ("skipped", .list (r.skipped.map SkippedFile.toDraft))] := by
    rw [toDraft, Draft.indented, Draft.indented, h]
    rfl
  rw [jsonText, Draft.prettyText_of_stop hstop]
  rfl

/-- A report is written to the end, and it is read back from its JSON text. -/
theorem ofJson?_jsonText (h : r.Fits) (ht : r.IsText) :
    ∃ text, r.jsonText = .ok text ∧ ofJson? text = some r := by
  have hs : ∀ c ∈ ("\n" : String).toList, Json.isSpace c = true := by simp [Json.isSpace]
  refine ⟨_, jsonText_eq ht, ?_⟩
  rw [ofJson?, Json.parse?_prettyText_append (exchangeable_toValue h) hs, Option.bind_some,
    ofValue?_toValue h ht]

/-- A report with every kind of entry, in which texts need escapes and numbers all 64 bits. -/
def sampleReport : Report where
  root := "/a \"b\"\\c"
  tree := [⟨18446744073709551615, "\t\x01\n", .directory⟩, ⟨0, "é😀/\x7f", .file⟩]
  files := [⟨"x.py", .python, [⟨"f", "", "\\u0041"⟩, ⟨"", "a, b", "\r\x08\x0c"⟩]⟩, ⟨"", .php, []⟩]
  skipped := [⟨"m", .tooLarge 18446744073709551615 0⟩, ⟨"n", .unreadable "\"reason\""⟩,
    ⟨"", .extractionFailed "\x00"⟩]

theorem ofJson?_jsonText_sample :
    (sampleReport.Fits ∧ sampleReport.IsText) ∧
      ∃ text, sampleReport.jsonText = .ok text ∧ Report.ofJson? text = some sampleReport := by
  have h : sampleReport.Fits := by decide
  have ht : sampleReport.IsText :=
    ⟨⟨_, rfl⟩,
      List.forall_mem_cons.mpr ⟨⟨_, rfl⟩, List.forall_mem_singleton.mpr ⟨_, rfl⟩⟩,
      List.forall_mem_cons.mpr
        ⟨⟨_, rfl⟩, List.forall_mem_cons.mpr ⟨⟨_, rfl⟩, List.forall_mem_singleton.mpr ⟨_, rfl⟩⟩⟩⟩
  exact ⟨⟨h, ht⟩, ofJson?_jsonText h ht⟩

end Report

end CodeOutline
