import CodeOutline.Proofs.FirstError
import CodeOutline.Settings.Check

/-! # Checks of settings

Settings pass the checks when they let a signature be kept, when every extension to hide has its
point, and when every text to exclude files by writes a glob.
-/

namespace CodeOutline.Settings

variable {settings : Settings} {texts : List String} {text : String} {e : Glob.Error}

theorem invalidGlob?_eq_some_iff :
    invalidGlob? texts = some (text, e) ↔ FirstRefused Glob.parse texts text e :=
  findSome?_eq_some_iff_firstRefused (fun _ _ h => by rw [h]) fun _ _ h => by rw [h]

theorem check_eq_ok_iff : settings.check = .ok () ↔ 0 < settings.scan.maxSignatures ∧
    (∀ extension ∈ settings.scan.ignoreExtensions, isExtension extension = true) ∧
      invalidGlob? settings.scan.exclude = none := by
  have hpoints : (settings.scan.ignoreExtensions.find? fun e => !isExtension e) = none ↔
      ∀ extension ∈ settings.scan.ignoreExtensions, isExtension extension = true := by
    simp
  rw [check, problem?, ← hpoints]
  by_cases hm : settings.scan.maxSignatures = 0
  · simp [hm]
  · rw [if_neg hm]
    cases settings.scan.ignoreExtensions.find? fun e => !isExtension e with
    | some extension => simp
    | none => cases invalidGlob? settings.scan.exclude <;> simp [Nat.pos_of_ne_zero hm]

theorem maxSignatures_pos (h : settings.check = .ok ()) : 0 < settings.scan.maxSignatures :=
  (check_eq_ok_iff.mp h).1

theorem isExtension_of_check (h : settings.check = .ok ()) {extension : String}
    (hx : extension ∈ settings.scan.ignoreExtensions) : isExtension extension = true :=
  (check_eq_ok_iff.mp h).2.1 extension hx

theorem not_firstRefused (h : settings.check = .ok ()) (text : String) (e : Glob.Error) :
    ¬ FirstRefused Glob.parse settings.scan.exclude text e := by
  rw [← invalidGlob?_eq_some_iff, (check_eq_ok_iff.mp h).2.2]
  nofun

/-- Where nothing else is wrong, the check looks for globs. -/
theorem check_eq_error_iff {error : SettingsError} (hm : 0 < settings.scan.maxSignatures)
    (hx : ∀ extension ∈ settings.scan.ignoreExtensions, isExtension extension = true) :
    settings.check = .error error ↔ ∃ text e,
      FirstRefused Glob.parse settings.scan.exclude text e ∧
        error = .unusable (.invalidGlob text e) := by
  have hpoints : (settings.scan.ignoreExtensions.find? fun e => !isExtension e) = none := by
    simpa using hx
  rw [check, problem?, if_neg (Nat.ne_of_gt hm), hpoints]
  simp only [← invalidGlob?_eq_some_iff]
  cases invalidGlob? settings.scan.exclude with
  | none => simp
  | some found =>
    obtain ⟨text, e⟩ := found
    simp [eq_comm]

end CodeOutline.Settings
