import CodeOutline.Proofs.Command.Effect

/-! # Scans with and without their name

The arguments of a scan are read the same whether the task is named or not. All that the name rules
out is to ask for the version, and that asks for no scan. So a scan can be named without any effect.
-/

namespace CodeOutline.Command

variable {flag : Flag} {arguments : List RawText}

theorem toOption_map {ε α β : Type} (f : α → β) (r : Except ε α) :
    (r.map f).toOption = r.toOption.map f := by
  cases r <;> rfl

theorem toOption_eq_some_iff {ε α : Type} {r : Except ε α} {x : α} :
    r.toOption = some x ↔ r = .ok x := by
  cases r <;> simp [Except.toOption]

namespace Flag

theorem allowedIn_scan (h : flag ≠ .version) : flag.allowedIn .scan = flag.allowedIn .bare := by
  cases flag with
  | version => exact absurd rfl h
  | _ => rfl

theorem filter_allowedIn_scan (name? : Option Flag) (h : name? ≠ some .version) :
    name?.filter (·.allowedIn .scan) = name?.filter (·.allowedIn .bare) := by
  cases name? with
  | none => rfl
  | some flag =>
    have hf : flag ≠ .version := fun he => h (congrArg some he)
    rw [Option.filter_some, Option.filter_some, allowedIn_scan hf]

end Flag

theorem readLong_scan (g : Given) (bytes : List UInt8) :
    (readLong .scan g bytes).toOption = (readLong .bare g bytes).toOption := by
  rw [readLong, readLong]
  by_cases hf : (RawText.text? ⟨bytes.takeWhile (· != equalsSign)⟩).bind Flag.ofName? =
      some .version
  · rw [hf]
    cases bytes.dropWhile (· != equalsSign) with
    | nil => rfl
    | cons c value => rfl
  · rw [Flag.filter_allowedIn_scan _ hf]

theorem readLetters_scan (g : Given) (letters : List UInt8) :
    (readLetters .scan g letters).toOption = (readLetters .bare g letters).toOption := by
  induction letters generalizing g with
  | nil => rfl
  | cons b bs ih =>
    rw [readLetters, readLetters]
    by_cases hf : Flag.ofLetter? (Char.ofNat b.toNat) = some .version
    · rw [hf]
      rfl
    · rw [Flag.filter_allowedIn_scan _ hf]
      split
      · rfl
      split
      · rfl
      split
      · exact ih _
      · rfl

theorem setPath_scan (g : Given) (value : RawText) :
    g.setPath .scan value = g.setPath .bare value := rfl

theorem readPaths_scan (g : Given) (arguments : List RawText) :
    readPaths .scan g arguments = readPaths .bare g arguments := rfl

theorem toOption_next {next next' : Except Stop (Given × Option Flag)}
    (hn : next.toOption = next'.toOption) (arguments : List RawText)
    (h : ∀ g open?, (readArguments .scan g open? arguments).toOption =
      (readArguments .bare g open? arguments).toOption) :
    (match next with
      | .ok (g, flag) => readArguments .scan g flag arguments
      | .error stop => .error stop).toOption =
    (match next' with
      | .ok (g, flag) => readArguments .bare g flag arguments
      | .error stop => .error stop).toOption := by
  cases next with
  | error stop =>
    cases next' with
    | error stop' => rfl
    | ok r => cases hn
  | ok r =>
    cases next' with
    | error stop => cases hn
    | ok r' =>
      cases hn
      exact h _ _

theorem readArguments_scan (g : Given) (open? : Option Flag) (arguments : List RawText) :
    (readArguments .scan g open? arguments).toOption =
      (readArguments .bare g open? arguments).toOption := by
  induction arguments generalizing g open? with
  | nil => cases open? <;> rfl
  | cons argument arguments ih =>
    cases open? with
    | some flag =>
      rw [readArguments, readArguments]
      split
      · rfl
      split
      · exact ih _ _
      · rfl
    | none =>
      rw [readArguments, readArguments]
      split
      · rw [readPaths_scan]
      · refine toOption_next ?_ arguments ih
        split
        · split
          · exact readLong_scan g _
          · exact readLetters_scan g _
        · rw [setPath_scan]

theorem ofScope_scan (arguments : List RawText) :
    (Invocation.ofScope .scan arguments).toOption =
      (Invocation.ofScope .bare arguments).toOption := by
  rw [Invocation.ofScope, Invocation.ofScope, toOption_map, toOption_map, readArguments_scan]
  rfl

/-- Arguments that name no task and ask for a scan, not for help or the version. -/
structure IsBareScan (arguments : List RawText) : Prop where
  unnamed : ∀ first, arguments.head? = some first → first ≠ "help" ∧ Scope.ofArgument? first = none
  accepted : ∃ i, Invocation.ofArguments arguments = .ok i

theorem ofArguments_scan (arguments : List RawText) :
    Invocation.ofArguments (("scan" : RawText) :: arguments) = Invocation.ofScope .scan arguments := rfl

theorem ofArguments_of_unnamed
    (h : ∀ first, arguments.head? = some first → first ≠ "help" ∧ Scope.ofArgument? first = none) :
    Invocation.ofArguments arguments = Invocation.ofScope .bare arguments := by
  cases arguments with
  | nil => rfl
  | cons first others =>
    obtain ⟨hhelp, hname⟩ := h first rfl
    rw [Invocation.ofArguments, if_neg hhelp, hname]

/-- A scan runs the same with its name and without. -/
theorem run_scan (h : IsBareScan arguments) (v : Volume) (env : Environment) :
    run v env (("scan" : RawText) :: arguments) = run v env arguments := by
  obtain ⟨i, hi⟩ := h.accepted
  have hscan := ofScope_scan arguments
  rw [← ofArguments_of_unnamed h.unnamed, hi] at hscan
  have hscan := toOption_eq_some_iff.mp hscan
  rw [run, run, ofArguments_scan, hscan, hi]

theorem isBareScan_options : IsBareScan ["-fjson", "src", "--exclude", "*.rs"] where
  unnamed := by
    rintro _ ⟨⟩
    decide
  accepted := ⟨⟨.scan ⟨some "src", .json, none, ["*.rs"]⟩, none⟩, rfl⟩

theorem run_scan_options :
    IsBareScan ["-fjson", "src", "--exclude", "*.rs"] ∧
      run deviceVolume deviceEnvironment ["scan", "-fjson", "src", "--exclude", "*.rs"] =
        run deviceVolume deviceEnvironment ["-fjson", "src", "--exclude", "*.rs"] :=
  ⟨isBareScan_options, run_scan isBareScan_options _ _⟩

end CodeOutline.Command
