import CodeOutline.Command.Run
import CodeOutline.Proofs.Document.Toml.Lines
import CodeOutline.Proofs.Report.Exchange
import CodeOutline.Proofs.Volume.Write

/-! # Effects of the command

Each task first looks at what it needs, then does its one write, if it has one, and prints at last.
So a run that fails has printed nothing and has changed no file, unless it fails at that last step:
a report with a path that is no text is printed up to that path, and a new settings file may be
written in part.
-/

namespace CodeOutline.Command

namespace Action

variable {α β : Type}

theorem run_bind (a : Action α) (f : α → Action β) (w : World) :
    (a >>= f).run.run w =
      match a.run.run w with
      | (.ok x, w') => (f x).run.run w'
      | (.error failure, w') => (.error failure, w') := by
  rw [ExceptT.run_bind, StateT.run_bind]
  change (match a.run.run w with | (r, w') => _) = _
  rcases a.run.run w with ⟨r, w'⟩
  cases r with
  | ok x => rfl
  | error failure => rfl

theorem run_ofExcept (r : Except Failure α) (w : World) :
    (ofExcept r : Action α).run.run w = (r, w) := by
  cases r with
  | ok x => rfl
  | error failure => rfl

theorem run_print (text : String) (w : World) :
    (print text).run.run w = (.ok (), { w with output := w.output ++ text }) := rfl

theorem run_get (w : World) : (get : Action World).run.run w = (.ok w, w) := rfl

theorem outcome_look (look : Volume → Except Failure α) (f : α → Action Unit) (v : Volume) :
    Action.outcome (do f (← ofExcept (look (← get).volume))) v =
      match look v with
      | .ok x => (f x).outcome v
      | .error failure => ⟨1, "", failure.text, v⟩ := by
  rw [Action.outcome, run_bind, run_get]
  dsimp only
  rw [run_bind, run_ofExcept]
  cases look v with
  | error failure => rfl
  | ok x => rfl

theorem outcome_print (text : String) (v : Volume) :
    (print text).outcome v = ⟨0, text, "", v⟩ := by
  rw [Action.outcome, run_print]
  dsimp only
  rw [String.empty_append]

end Action

open Command.Action

variable {v : Volume} {env : Environment} {force : Bool} {arguments : List RawText}

/-! ## Tasks -/

/-- The text of a report, or else what of it can be written. -/
def Format.text (f : Format) (r : Report) : Except String String :=
  match f with
  | .markdown => .ok r.markdownText
  | .json => r.jsonText
  | .compact => .ok r.compactText

/-- A report that cannot be written. -/
def unwritten : Failure :=
  ⟨"path contains invalid UTF-8 characters", []⟩

theorem outcome_write (f : Format) (r : Report) (v : Volume) :
    (f.write r).outcome v =
      match f.text r with
      | .ok text => ⟨0, text, "", v⟩
      | .error start => ⟨1, start, unwritten.text, v⟩ := by
  cases f with
  | markdown => exact outcome_print _ v
  | compact => exact outcome_print _ v
  | json =>
    rw [Format.write, Format.text]
    cases r.jsonText with
    | ok text => exact outcome_print text v
    | error start =>
      dsimp only
      rw [Action.outcome, run_bind, run_print]
      dsimp only
      rw [String.empty_append]
      rfl

theorem outcome_scan (v : Volume) (env : Environment) (a : ScanArguments)
    (settings : Option RawText) : (perform env ⟨.scan a, settings⟩).outcome v =
      match scan v env a settings with
      | .ok r => (a.format.write r).outcome v
      | .error failure => ⟨1, "", failure.text, v⟩ := by
  refine (outcome_look (scan · env a settings) a.format.write v).trans ?_
  cases scan v env a settings <;> rfl

theorem outcome_languages (v : Volume) (env : Environment) (settings : Option RawText) :
    (perform env ⟨.languages, settings⟩).outcome v =
      match languages v env settings with
      | .ok text => (print text).outcome v
      | .error failure => ⟨1, "", failure.text, v⟩ := by
  refine (outcome_look (languages · env settings) print v).trans ?_
  cases languages v env settings <;> rfl

theorem run_writeFile (env : Environment) (path : RawText) (content : ByteArray) (w : World) :
    (writeFile env path content).run.run w =
      match w.volume.write env.cwd path content with
      | (v, none) => (.ok (), { w with volume := v })
      | (v, some error) => (.error ⟨error.message, []⟩, { w with volume := v }) := by
  rw [writeFile, run_bind, run_get]
  dsimp only
  obtain ⟨v, error?⟩ := w.volume.write env.cwd path content
  cases error? with
  | none => rfl
  | some error => rfl

/-- A new settings file is there and is not to be written again. -/
def fileExists : Failure :=
  ⟨"Configuration file already exists at " ++ newFileName.shown ++ ". Use --force to overwrite.", []⟩

theorem outcome_init (v : Volume) (env : Environment) (force : Bool) :
    (init env force).outcome v =
      if (v.has env.cwd newFileName && !force) = true then ⟨1, "", fileExists.text, v⟩
      else
        match v.write env.cwd newFileName template.toUTF8 with
        | (after, none) => ⟨0, initText, "", after⟩
        | (after, some error) => ⟨1, "", Failure.text ⟨error.message, []⟩, after⟩ := by
  rw [Action.outcome, init, run_bind, run_get]
  dsimp only
  by_cases hhas : (v.has env.cwd newFileName && !force) = true
  · rw [if_pos hhas, if_pos hhas]
    rfl
  · rw [if_neg hhas, if_neg hhas, run_bind, run_writeFile]
    dsimp only
    obtain ⟨after, error?⟩ := v.write env.cwd newFileName template.toUTF8
    cases error? with
    | some error => rfl
    | none =>
      dsimp only
      rw [run_print]
      dsimp only
      rw [String.empty_append]

/-! ## Runs -/

/-- How a run fails. -/
inductive FailedRun (v : Volume) (env : Environment) (arguments : List RawText) (o : Outcome) :
    Prop
  /-- Nothing is printed, and no file is changed. -/
  | silent : o.output = "" → o.volume = v → FailedRun v env arguments o
  /-- A report with a path that is no text is printed up to there. -/
  | unwritten (a : ScanArguments) (settings : Option RawText) (r : Report) :
    Invocation.ofArguments arguments = .ok ⟨.scan a, settings⟩ → a.format = .json →
      scan v env a settings = .ok r → ¬ r.IsText → r.jsonText = .error o.output →
        o.volume = v → FailedRun v env arguments o
  /-- A new settings file is written up to where there was no more room. -/
  | cut (force : Bool) (settings : Option RawText) (start : ByteArray) :
    Invocation.ofArguments arguments = .ok ⟨.init force, settings⟩ →
      start.data.toList <+: template.toUTF8.data.toList →
        v.Written env.cwd newFileName start o.volume → o.output = "" →
          FailedRun v env arguments o

/-- What a run does to its output and to the files. -/
structure Effects (v : Volume) (env : Environment) (arguments : List RawText) (o : Outcome) :
    Prop where
  failed : o.code ≠ 0 → FailedRun v env arguments o
  /-- Only to ask for a new settings file can change files. -/
  kept : (∀ force settings,
    Invocation.ofArguments arguments ≠ .ok ⟨.init force, settings⟩) → o.volume = v
  /-- Unless it is forced, a new settings file takes the place of no file. -/
  unforced : ∀ settings, Invocation.ofArguments arguments = .ok ⟨.init false, settings⟩ →
    ∀ place content, v.top.at? place = some (.file content) →
      o.volume.top.at? place = some (.file content)
  /-- A new settings file has the text of the template, and nothing else is changed. -/
  written : ∀ force settings, Invocation.ofArguments arguments = .ok ⟨.init force, settings⟩ →
    o.code = 0 → v.Written env.cwd newFileName template.toUTF8 o.volume

theorem Effects.of_kept {o : Outcome} (hv : o.volume = v)
    (hi : ∀ force settings, Invocation.ofArguments arguments ≠ .ok ⟨.init force, settings⟩)
    (hf : o.code ≠ 0 → FailedRun v env arguments o) : Effects v env arguments o where
  failed := hf
  kept _ := hv
  unforced settings hs := absurd hs (hi false settings)
  written force settings hs := absurd hs (hi force settings)

theorem effects_scan {a : ScanArguments} {settings : Option RawText}
    (hi : Invocation.ofArguments arguments = .ok ⟨.scan a, settings⟩) :
    Effects v env arguments ((perform env ⟨.scan a, settings⟩).outcome v) := by
  have hn : ∀ force settings,
      Invocation.ofArguments arguments ≠ .ok ⟨.init force, settings⟩ := by
    intro force settings h
    rw [hi] at h
    cases h
  rw [outcome_scan]
  cases hs : scan v env a settings with
  | error failure => exact Effects.of_kept rfl hn fun _ => FailedRun.silent rfl rfl
  | ok r =>
    dsimp only
    rw [outcome_write]
    cases ht : a.format.text r with
    | ok text => exact Effects.of_kept rfl hn fun h => absurd rfl h
    | error start =>
      -- Only JSON has texts that cannot be written.
      have hj : a.format = .json ∧ r.jsonText = .error start := by
        cases hf : a.format <;> rw [hf] at ht <;> first | cases ht | exact ⟨rfl, ht⟩
      refine Effects.of_kept rfl hn fun _ => FailedRun.unwritten a settings r hi hj.1 hs ?_ hj.2 rfl
      intro htext
      rw [Report.jsonText_eq htext] at hj
      cases hj.2

theorem effects_languages {settings : Option RawText}
    (hi : Invocation.ofArguments arguments = .ok ⟨.languages, settings⟩) :
    Effects v env arguments ((perform env ⟨.languages, settings⟩).outcome v) := by
  have hn : ∀ force settings,
      Invocation.ofArguments arguments ≠ .ok ⟨.init force, settings⟩ := by
    intro force settings h
    rw [hi] at h
    cases h
  rw [outcome_languages]
  cases languages v env settings with
  | error failure => exact Effects.of_kept rfl hn fun _ => FailedRun.silent rfl rfl
  | ok text =>
    dsimp only
    rw [outcome_print]
    exact Effects.of_kept rfl hn fun h => absurd rfl h

theorem effects_init (ht : v.top.isDirectory = true) {settings : Option RawText}
    (hi : Invocation.ofArguments arguments = .ok ⟨.init force, settings⟩) :
    Effects v env arguments ((init env force).outcome v) := by
  have hkept : (∀ force settings,
      Invocation.ofArguments arguments ≠ .ok ⟨.init force, settings⟩) →
        ((init env force).outcome v).volume = v := fun hn => absurd hi (hn force settings)
  rw [outcome_init] at hkept ⊢
  split at hkept
  · rename_i hhas
    rw [if_pos hhas]
    refine ⟨fun _ => FailedRun.silent rfl rfl, hkept, fun _ _ _ _ hp => hp, ?_⟩
    intro _ _ _ hc
    cases hc
  rename_i hhas
  rw [if_neg hhas]
  -- Without force, nothing is found under the name before.
  have hnone : ∀ settings, Invocation.ofArguments arguments = .ok ⟨.init false, settings⟩ →
      v.has env.cwd newFileName = false := by
    intro settings' hs
    rw [hi] at hs
    cases hs
    simpa using hhas
  have hresult := Volume.writeResult ht env.cwd newFileName template.toUTF8
  generalize v.write env.cwd newFileName template.toUTF8 = result at hkept hresult ⊢
  cases hresult with
  | done after hw =>
    exact ⟨fun h => absurd rfl h, hkept, fun settings hs _ _ hp => hw.keeps (hnone settings hs) hp,
      fun _ _ _ _ => hw⟩
  | cut after start hstart hw =>
    refine ⟨fun _ => FailedRun.cut force settings start hi hstart hw rfl, hkept,
      fun settings hs _ _ hp => hw.keeps (hnone settings hs) hp, ?_⟩
    intro _ _ _ hc
    cases hc
  | failed error =>
    refine ⟨fun _ => FailedRun.silent rfl rfl, hkept, fun _ _ _ _ hp => hp, ?_⟩
    intro _ _ _ hc
    cases hc

/-- A run that fails has done next to nothing, and one that does not has changed at most the new
settings file. -/
theorem run_effects (ht : v.top.isDirectory = true) (env : Environment)
    (arguments : List RawText) : Effects v env arguments (run v env arguments) := by
  rw [run]
  split
  · exact Effects.of_kept rfl (by simp_all) fun _ => FailedRun.silent rfl rfl
  · exact Effects.of_kept rfl (by simp_all) fun h => absurd rfl h
  · exact Effects.of_kept rfl (by simp_all) fun h => absurd rfl h
  · rename_i i hi
    obtain ⟨task, settings⟩ := i
    cases task with
    | scan a => exact effects_scan hi
    | languages => exact effects_languages hi
    | init force => exact effects_init ht hi

theorem takes_newFileName : Volume.Takes newFileName :=
  ⟨by decide, by decide, by decide⟩

/-- A settings file that is a link to a device. -/
def deviceVolume : Volume where
  top := .directory [("dev", .directory [("null", .device)]), (newFileName, .link "/dev/null")]

def deviceEnvironment : Environment :=
  ⟨"/", none, none, none⟩

theorem run_effects_device :
    deviceVolume.top.isDirectory = true ∧
      Effects deviceVolume deviceEnvironment ["init", "--force"]
        (run deviceVolume deviceEnvironment ["init", "--force"]) :=
  ⟨rfl, run_effects rfl deviceEnvironment ["init", "--force"]⟩

theorem toUTF8_ne_empty {text : String} (h : text ≠ "") : text.toUTF8 ≠ .empty := by
  intro he
  have hsize : text.utf8ByteSize = 0 := congrArg ByteArray.size he
  exact h (String.utf8ByteSize_eq_zero_iff.mp hsize)

theorem template_ne_empty : template ≠ "" := Text.unlines_ne_empty _ _

/-- What is written to a device is not there afterwards. -/
theorem read_newFile_device :
    (run deviceVolume deviceEnvironment ["init", "--force"]).code = 0 ∧
      (run deviceVolume deviceEnvironment ["init", "--force"]).volume.read deviceEnvironment.cwd
        newFileName ≠ .ok template.toUTF8 := by
  have hreach : deviceVolume.reach deviceEnvironment.cwd newFileName =
      .ok (.found ⟨["dev", "null"], .device, 39⟩) := by
    rw [takes_newFileName.reach_eq]
    rfl
  have hwrite : deviceVolume.write deviceEnvironment.cwd newFileName template.toUTF8 =
      (deviceVolume, none) := by
    rw [Volume.write, hreach]
    rfl
  have hread : deviceVolume.read deviceEnvironment.cwd newFileName = .ok .empty := by
    rw [Volume.read, Volume.find, hreach]
    rfl
  have ha : Invocation.ofArguments ["init", "--force"] = .ok ⟨.init true, none⟩ := rfl
  have hrun : run deviceVolume deviceEnvironment ["init", "--force"] =
      ⟨0, initText, "", deviceVolume⟩ := by
    rw [run, ha]
    dsimp only [perform]
    rw [outcome_init, Bool.not_true, Bool.and_false, if_neg Bool.false_ne_true, hwrite]
  rw [hrun]
  refine ⟨rfl, ?_⟩
  rw [hread]
  intro he
  exact toUTF8_ne_empty template_ne_empty (Except.ok.inj he).symm

/-- A volume with no room for any content. -/
def fullVolume : Volume where
  top := .directory []
  room := some 0

theorem has_newFile_full :
    (run fullVolume deviceEnvironment ["init"]).code ≠ 0 ∧
      fullVolume.has deviceEnvironment.cwd newFileName = false ∧
      (run fullVolume deviceEnvironment ["init"]).volume.has deviceEnvironment.cwd newFileName =
        true := by
  have hreach : fullVolume.reach deviceEnvironment.cwd newFileName =
      .ok (.vacant [] newFileName) := by
    rw [takes_newFileName.reach_eq]
    rfl
  have hhas : fullVolume.has deviceEnvironment.cwd newFileName = false := by
    rw [Volume.has, Volume.find, hreach]
  have htakes : fullVolume.takes template.toUTF8 = false := by
    rw [Volume.takes, fullVolume]
    have hsize : template.toUTF8.size ≠ 0 := fun h =>
      template_ne_empty (String.utf8ByteSize_eq_zero_iff.mp h)
    simpa using hsize
  have hwrite : fullVolume.write deviceEnvironment.cwd newFileName template.toUTF8 =
      (fullVolume.put [newFileName] (.file (fullVolume.fitting template.toUTF8)), some .full) := by
    rw [Volume.write, hreach]
    change fullVolume.fill [newFileName] template.toUTF8 = _
    rw [Volume.fill, htakes]
    rfl
  have ha : Invocation.ofArguments ["init"] = .ok ⟨.init false, none⟩ := rfl
  have hrun : run fullVolume deviceEnvironment ["init"] =
      ⟨1, "", Failure.text ⟨FileError.full.message, []⟩,
        fullVolume.put [newFileName] (.file (fullVolume.fitting template.toUTF8))⟩ := by
    rw [run, ha]
    dsimp only [perform]
    rw [outcome_init, hhas, Bool.false_and, if_neg Bool.false_ne_true, hwrite]
  rw [hrun]
  refine ⟨Nat.one_ne_zero, hhas, ?_⟩
  dsimp only
  rw [Volume.has, Volume.find, takes_newFileName.reach_eq]
  rfl

/-- A directory with a name that is no text. -/
def rawName : RawText := ⟨[0xFF]⟩

def rawVolume : Volume where
  top := .directory [(rawName, .directory [])]

theorem output_rawName :
    (run rawVolume deviceEnvironment ["--format", "json", rawName]).code ≠ 0 ∧
      (run rawVolume deviceEnvironment ["--format", "json", rawName]).output ≠ "" := by
  have ha : Invocation.ofArguments ["--format", "json", rawName] =
      .ok ⟨.scan ⟨some rawName, .json, none, []⟩, none⟩ := rfl
  obtain ⟨r, hs, hroot⟩ : ∃ r, scan rawVolume deviceEnvironment ⟨some rawName, .json, none, []⟩
      none = .ok r ∧ r.root.text? = none :=
    ⟨(⟨⟨[0x2F, 0xFF]⟩, .default, .builtin, []⟩ : Scanner).scan rawVolume deviceEnvironment, rfl, rfl⟩
  rw [run, ha]
  dsimp only
  rw [outcome_scan, hs]
  dsimp only
  rw [outcome_write, Format.text, Report.jsonText_of_root hroot]
  exact ⟨Nat.one_ne_zero, by simp⟩

/-- A run may fail with something printed, or with a file that was not there before, and a new
settings file may not be there after a run that does not fail. -/
theorem run_leaves_traces :
    ((run rawVolume deviceEnvironment ["--format", "json", rawName]).code ≠ 0 ∧
      (run rawVolume deviceEnvironment ["--format", "json", rawName]).output ≠ "") ∧
    ((run fullVolume deviceEnvironment ["init"]).code ≠ 0 ∧
      fullVolume.has deviceEnvironment.cwd newFileName = false ∧
      (run fullVolume deviceEnvironment ["init"]).volume.has deviceEnvironment.cwd newFileName =
        true) ∧
    (run deviceVolume deviceEnvironment ["init", "--force"]).code = 0 ∧
      (run deviceVolume deviceEnvironment ["init", "--force"]).volume.read deviceEnvironment.cwd
        newFileName ≠ .ok template.toUTF8 :=
  ⟨output_rawName, has_newFile_full, read_newFile_device⟩

end CodeOutline.Command
