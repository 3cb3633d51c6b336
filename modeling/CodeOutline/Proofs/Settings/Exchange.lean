import CodeOutline.Proofs.Dictionary
import CodeOutline.Proofs.Document.Value
import CodeOutline.Settings.Exchange

/-! # Settings and their exchange form

Settings are read field by field, and a section that is missing is read as one in which every field
is missing. So settings are found again in their exchange form, and whatever sections and fields are
taken out of it, exactly the fields that are gone have their defaults.
-/

namespace CodeOutline

open Document

theorem Dictionary.ofValue?_toValue (d : Dictionary String) : ofValue? d.toValue = some d := by
  rw [ofValue?, toValue, asTable_map fun _ _ => rfl, Option.map_some, ofList_entries]

theorem textsOfValue?_textsToValue (ts : List String) :
    textsOfValue? (textsToValue ts) = some ts :=
  asList_map fun _ _ => rfl

theorem ScanSettings.ofValue?_empty (surplus : Surplus) :
    ofValue? surplus (.table []) = some default := rfl

theorem LanguageSettings.ofValue?_empty (surplus : Surplus) :
    ofValue? surplus (.table []) = some default := rfl

namespace Settings

/-! ## Sections and fields -/

inductive Section
  | scan | languages
  deriving DecidableEq

def Section.name : Section → String
  | .scan => "scan"
  | .languages => "languages"

theorem Section.name_inj {k l : Section} : k.name = l.name ↔ k = l := by
  cases k <;> cases l <;> decide

inductive Field
  | ignoreDirs | ignoreExtensions | ignoreFiles | exclude | maxFileSize | maxSignatures
  | respectGitignore
  | extensions | patterns
  deriving DecidableEq

namespace Field

/-- The section that a field is in. -/
def home : Field → Section
  | .extensions => .languages
  | .patterns => .languages
  | _ => .scan

def name : Field → String
  | .ignoreDirs => "ignore_dirs"
  | .ignoreExtensions => "ignore_extensions"
  | .ignoreFiles => "ignore_files"
  | .exclude => "exclude"
  | .maxFileSize => "max_file_size"
  | .maxSignatures => "max_signatures"
  | .respectGitignore => "respect_gitignore"
  | .extensions => "extensions"
  | .patterns => "patterns"

theorem name_inj {f g : Field} : f.name = g.name ↔ f = g := by
  cases f <;> cases g <;> decide

/-- What a field holds. -/
abbrev Content : Field → Type
  | .ignoreDirs => List String
  | .ignoreExtensions => List String
  | .ignoreFiles => List String
  | .exclude => List String
  | .maxFileSize => Nat
  | .maxSignatures => Nat
  | .respectGitignore => Bool
  | .extensions => Dictionary String
  | .patterns => Dictionary String

/-- The content of a field in settings. -/
def of : (f : Field) → Settings → f.Content
  | .ignoreDirs, s => s.scan.ignoreDirs
  | .ignoreExtensions, s => s.scan.ignoreExtensions
  | .ignoreFiles, s => s.scan.ignoreFiles
  | .exclude, s => s.scan.exclude
  | .maxFileSize, s => s.scan.maxFileSize
  | .maxSignatures, s => s.scan.maxSignatures
  | .respectGitignore, s => s.scan.respectGitignore
  | .extensions, s => s.languages.extensions
  | .patterns, s => s.languages.patterns

end Field

/-- The settings with a given content of every field. -/
def ofFields (content : (f : Field) → f.Content) : Settings where
  scan := ⟨content .ignoreDirs, content .ignoreExtensions, content .ignoreFiles, content .exclude,
    content .maxFileSize, content .maxSignatures, content .respectGitignore⟩
  languages := ⟨content .extensions, content .patterns⟩

theorem of_ofFields (content : (f : Field) → f.Content) (f : Field) :
    f.of (ofFields content) = content f := by
  cases f <;> rfl

/-- What can be taken out of the exchange form: a section with all that is in it, or one field. -/
inductive Member
  | whole (k : Section)
  | single (f : Field)
  deriving DecidableEq

namespace Member

/-- The names that lead to a member. -/
def path : Member → List String
  | .whole k => [k.name]
  | .single f => [f.home.name, f.name]

/-- A field is gone with a member. -/
def covers : Member → Field → Bool
  | .whole k, f => f.home = k
  | .single g, f => f = g

theorem covers_whole_iff {k : Section} {f : Field} : (whole k).covers f = true ↔ f.home = k :=
  decide_eq_true_iff

theorem covers_single_iff {f g : Field} : (single g).covers f = true ↔ f = g :=
  decide_eq_true_iff

end Member

/-- A document without some members, which are taken out one after the other. -/
def without (members : List Member) (v : Value) : Value :=
  members.foldl (fun v m => v.remove m.path) v

/-- The settings with the defaults in all fields that are gone with some members. -/
def withDefaults (members : List Member) (s : Settings) : Settings :=
  ofFields fun f => if members.any (·.covers f) then f.of .default else f.of s

variable {v : Value} {s : Settings} {surplus : Surplus} {entries : List (String × Value)}

theorem of_withDefaults (members : List Member) (s : Settings) (f : Field) :
    f.of (s.withDefaults members) =
      if members.any (·.covers f) then f.of .default else f.of s :=
  of_ofFields _ f

theorem withDefaults_nil (s : Settings) : s.withDefaults [] = s := rfl

theorem withDefaults_cons (m : Member) (members : List Member) (s : Settings) :
    s.withDefaults (m :: members) = (s.withDefaults [m]).withDefaults members := by
  unfold withDefaults
  congr 1
  funext f
  rw [of_ofFields, List.any_cons, List.any_cons, List.any_nil, Bool.or_false]
  cases m.covers f <;> cases members.any (·.covers f) <;> rfl

/-! ## Reading field by field -/

namespace Field

/-- The reader of what a field holds. -/
def readContent : (f : Field) → Value → Option f.Content
  | .ignoreDirs => textsOfValue?
  | .ignoreExtensions => textsOfValue?
  | .ignoreFiles => textsOfValue?
  | .exclude => textsOfValue?
  | .maxFileSize => Value.asCount
  | .maxSignatures => Value.asCount
  | .respectGitignore => Value.asBool
  | .extensions => Dictionary.ofValue?
  | .patterns => Dictionary.ofValue?

/-- A field as the entries of its section give it. -/
def read (f : Field) (entries : List (String × Value)) : Option f.Content :=
  (Value.table entries).optional 0 f.name (f.of .default) f.readContent

theorem read_nil (f : Field) : f.read [] = some (f.of .default) := rfl

theorem read_filter (f g : Field) (entries : List (String × Value)) :
    f.read (entries.filter fun e => e.1 ≠ g.name) =
      if f = g then some (f.of .default) else f.read entries := by
  simp only [read, Value.optional, Value.field, Value.under_filter, name_inj]
  by_cases h : f = g
  · rw [if_pos h, if_pos h]
  · rw [if_neg h, if_neg h]

end Field

theorem optional_field {f : Field} (h : f.read entries = some (f.of s)) (place : Nat) :
    (Value.table entries).optional place f.name (f.of .default) f.readContent = some (f.of s) :=
  h

theorem ofValue?_scan (h : ∀ f : Field, f.home = .scan → f.read entries = some (f.of s)) :
    ScanSettings.ofValue? surplus (.table entries) = some s.scan := by
  have hdirs : (Value.table entries).optional 0 "ignore_dirs" ScanSettings.defaultIgnoreDirs
      textsOfValue? = some s.scan.ignoreDirs := optional_field (h .ignoreDirs rfl) 0
  have hextensions : (Value.table entries).optional 1 "ignore_extensions"
      ScanSettings.defaultIgnoreExtensions textsOfValue? = some s.scan.ignoreExtensions :=
    optional_field (h .ignoreExtensions rfl) 1
  have hfiles : (Value.table entries).optional 2 "ignore_files" ScanSettings.defaultIgnoreFiles
      textsOfValue? = some s.scan.ignoreFiles := optional_field (h .ignoreFiles rfl) 2
  have hexclude : (Value.table entries).optional 3 "exclude" [] textsOfValue? =
      some s.scan.exclude := optional_field (h .exclude rfl) 3
  have hsize : (Value.table entries).optional 4 "max_file_size" ScanSettings.defaultMaxFileSize
      Value.asCount = some s.scan.maxFileSize := optional_field (h .maxFileSize rfl) 4
  have hsignatures : (Value.table entries).optional 5 "max_signatures"
      ScanSettings.defaultMaxSignatures Value.asCount = some s.scan.maxSignatures :=
    optional_field (h .maxSignatures rfl) 5
  have hgitignore : (Value.table entries).optional 6 "respect_gitignore" false Value.asBool =
      some s.scan.respectGitignore := optional_field (h .respectGitignore rfl) 6
  rw [ScanSettings.ofValue?, hdirs, hextensions, hfiles, hexclude, hsize, hsignatures, hgitignore]
  rfl

theorem ofValue?_languages
    (h : ∀ f : Field, f.home = .languages → f.read entries = some (f.of s)) :
    LanguageSettings.ofValue? surplus (.table entries) = some s.languages := by
  have hextensions : (Value.table entries).optional 0 "extensions" .empty Dictionary.ofValue? =
      some s.languages.extensions := optional_field (h .extensions rfl) 0
  have hpatterns : (Value.table entries).optional 1 "patterns" .empty Dictionary.ofValue? =
      some s.languages.patterns := optional_field (h .patterns rfl) 1
  rw [LanguageSettings.ofValue?, hextensions, hpatterns]
  rfl

/-- The entries of a section in a document, none where the section is missing. -/
def Section.fieldsIn (k : Section) (v : Value) : List (String × Value) :=
  match v.field 0 k.name with
  | [.table entries] => entries
  | _ => []

/-- The document is a table, and so is every section that it has. -/
def IsDivided (v : Value) : Prop :=
  ∃ entries, v = .table entries ∧ ∀ k : Section, Value.under k.name entries = [] ∨
    ∃ fields, Value.under k.name entries = [.table fields]

/-- The document has the fields of the settings in its sections. -/
structure Writes (v : Value) (s : Settings) : Prop where
  divided : IsDivided v
  fields : ∀ f : Field, f.read (f.home.fieldsIn v) = some (f.of s)

/-- A section that is not there is read as one without entries: both have the defaults. -/
theorem optional_section {α : Type} {default : α} {read : Value → Option α} (hv : IsDivided v)
    (hread : read (.table []) = some default) (place : Nat) (k : Section) :
    v.optional place k.name default read = read (.table (k.fieldsIn v)) := by
  obtain ⟨entries, rfl, hs⟩ := hv
  simp only [Value.optional, Section.fieldsIn, Value.field]
  rcases hs k with h | ⟨fields, h⟩
  · simp only [h, hread]
  · simp only [h]

theorem Writes.ofValue?_eq (h : Writes v s) : ofValue? surplus v = some s := by
  have hscan : v.optional 0 "scan" .default (ScanSettings.ofValue? surplus) = some s.scan := by
    have hempty := ScanSettings.ofValue?_empty surplus
    refine (optional_section h.divided hempty 0 .scan).trans (ofValue?_scan fun f hf => ?_)
    rw [← hf, h.fields]
  have hlanguages : v.optional 1 "languages" .default (LanguageSettings.ofValue? surplus) =
      some s.languages := by
    have hempty := LanguageSettings.ofValue?_empty surplus
    refine (optional_section h.divided hempty 1 .languages).trans
      (ofValue?_languages fun f hf => ?_)
    rw [← hf, h.fields]
  obtain ⟨entries, rfl, -⟩ := h.divided
  rw [ofValue?, hscan, hlanguages]
  rfl

/-! ## Taking members out -/

theorem fieldsIn_remove_whole (hv : IsDivided v) (k l : Section) :
    l.fieldsIn (v.remove (Member.whole k).path) = if l = k then [] else l.fieldsIn v := by
  obtain ⟨entries, rfl, -⟩ := hv
  simp only [Member.path, Value.remove_singleton, Section.fieldsIn, Value.field,
    Value.under_filter, Section.name_inj]
  by_cases hl : l = k
  · rw [if_pos hl, if_pos hl]
  · rw [if_neg hl, if_neg hl]

theorem fieldsIn_remove_single (hv : IsDivided v) (f : Field) (l : Section) :
    l.fieldsIn (v.remove (Member.single f).path) =
      if l = f.home then (l.fieldsIn v).filter fun e => e.1 ≠ f.name else l.fieldsIn v := by
  obtain ⟨entries, rfl, hs⟩ := hv
  simp only [Member.path, Value.remove_cons_cons, Section.fieldsIn, Value.field,
    Value.under_map, Section.name_inj]
  by_cases hl : l = f.home
  · rw [if_pos hl, if_pos hl]
    rcases hs l with h | ⟨fields, h⟩
    · rw [h]
      rfl
    · rw [h]
      rfl
  · rw [if_neg hl, if_neg hl]

theorem IsDivided.remove (hv : IsDivided v) (m : Member) : IsDivided (v.remove m.path) := by
  obtain ⟨entries, rfl, hs⟩ := hv
  cases m with
  | whole l =>
    refine ⟨_, rfl, fun k => ?_⟩
    rw [Value.under_filter]
    split
    · exact Or.inl rfl
    · exact hs k
  | single f =>
    refine ⟨_, rfl, fun k => ?_⟩
    rw [Value.under_map]
    split
    · rcases hs k with h | ⟨fields, h⟩
      · exact Or.inl (by rw [h]; rfl)
      · exact Or.inr ⟨_, by rw [h]; rfl⟩
    · exact hs k

/-- One member less: what it covers has its default from now on. -/
theorem Writes.remove (h : Writes v s) (m : Member) :
    Writes (v.remove m.path) (s.withDefaults [m]) := by
  refine ⟨h.divided.remove m, fun f => ?_⟩
  rw [of_withDefaults, List.any_cons, List.any_nil, Bool.or_false]
  cases m with
  | whole k =>
    simp only [fieldsIn_remove_whole h.divided, Member.covers_whole_iff]
    split
    · exact f.read_nil
    · exact h.fields f
  | single g =>
    simp only [fieldsIn_remove_single h.divided, Member.covers_single_iff]
    by_cases hg : f = g
    · rw [if_pos (congrArg Field.home hg), if_pos hg, Field.read_filter, if_pos hg]
    · rw [if_neg hg, apply_ite f.read, Field.read_filter, if_neg hg, ite_self, h.fields]

theorem Writes.without (h : Writes v s) (members : List Member) :
    Writes (Settings.without members v) (s.withDefaults members) := by
  induction members generalizing v s with
  | nil =>
    rw [withDefaults_nil]
    exact h
  | cons m members ih =>
    rw [withDefaults_cons]
    exact ih (h.remove m)

/-! ## Exchange forms -/

/-- The limits are numbers of 64 bits. -/
structure Fits (s : Settings) : Prop where
  maxFileSize : IsCount s.scan.maxFileSize
  maxSignatures : IsCount s.scan.maxSignatures

instance (s : Settings) : Decidable s.Fits :=
  decidable_of_iff (IsCount s.scan.maxFileSize ∧ IsCount s.scan.maxSignatures)
    ⟨fun ⟨hf, hs⟩ => ⟨hf, hs⟩, fun ⟨hf, hs⟩ => ⟨hf, hs⟩⟩

theorem writes_toValue (h : s.Fits) : Writes s.toValue s := by
  refine ⟨⟨_, rfl, fun k => ?_⟩, fun f => ?_⟩
  · cases k <;> exact Or.inr ⟨_, rfl⟩
  · cases f with
    | ignoreDirs | ignoreExtensions | ignoreFiles | exclude =>
      exact textsOfValue?_textsToValue _
    | maxFileSize => exact asCount_integer h.maxFileSize
    | maxSignatures => exact asCount_integer h.maxSignatures
    | respectGitignore => rfl
    | extensions | patterns => exact Dictionary.ofValue?_toValue _

theorem exchangeable_toValue (h : s.Fits) : s.toValue.Exchangeable := by
  have htexts (ts : List String) : (textsToValue ts).Exchangeable := by
    rw [textsToValue, Value.exchangeable_list, List.forall_mem_map]
    exact fun t _ => .text t
  have hdictionary (d : Dictionary String) : d.toValue.Exchangeable := by
    rw [Dictionary.toValue, Value.exchangeable_table, List.forall_mem_map]
    exact fun e _ => .text e.2
  simp [toValue, ScanSettings.toValue, LanguageSettings.toValue, htexts, hdictionary,
    fitsInteger_count h.maxFileSize, fitsInteger_count h.maxSignatures, Value.Exchangeable.bool]

theorem exchangeable_without (hv : v.Exchangeable) (members : List Member) :
    (without members v).Exchangeable := by
  induction members generalizing v with
  | nil => exact hv
  | cons m members ih => exact ih (hv.remove m.path)

/-- Settings are read back from their exchange form, and from what is left of it, as a JSON text
too, when members are taken out: then the fields that are gone have their defaults. -/
theorem ofValue?_without (h : s.Fits) (surplus : Surplus) :
    ofValue? surplus s.toValue = some s ∧ ∀ members : List Member,
      Json.parse? (Json.prettyText (without members s.toValue)) = some (without members s.toValue) ∧
        ofValue? surplus (without members s.toValue) = some (s.withDefaults members) := by
  have hw := writes_toValue h
  refine ⟨hw.ofValue?_eq, fun members => ⟨?_, (hw.without members).ofValue?_eq⟩⟩
  have hend : ∀ c ∈ ("" : String).toList, Json.isSpace c = true := by simp
  have hx := exchangeable_without (exchangeable_toValue h) members
  have hp := Json.parse?_prettyText_append hx hend
  rwa [String.append_empty] at hp

/-- Settings with something other than the default in every field. -/
def filledSettings : Settings where
  scan := ⟨["\"é\""], [], [".x", ""], ["a/**"], 18446744073709551615, 0, true⟩
  languages := ⟨.ofList [(".v", "c"), (".pyi", "python")], .ofList [("go", "\\(\n")]⟩

/-- A field that is gone with its section is named again, which changes nothing. -/
theorem ofValue?_without_filled : filledSettings.Fits ∧
    ofValue? .refused (without [.single .maxSignatures, .whole .languages, .single .patterns]
      filledSettings.toValue) =
        some ⟨{ filledSettings.scan with maxSignatures := 25 }, .default⟩ := by
  have h : filledSettings.Fits := by decide
  exact ⟨h, ((ofValue?_without h .refused).2 _).2⟩

end Settings

end CodeOutline
