import CodeOutline.Scan
import CodeOutline.Settings.Source

/-! # Failures

What the command says when it cannot do its task: what it was about to do, and what stood in its
way, down to the first cause.
-/

namespace CodeOutline.Command

structure Failure where
  message : String
  causes : List String
  deriving DecidableEq, Repr

namespace Failure

/-- A text whose lines after the first are indented. -/
def indent (margin text : String) : String :=
  String.ofList (text.toList.flatMap fun c => if c = '\n' then '\n' :: margin.toList else [c])

/-- Causes on lines of their own, numbered from a number on. -/
def numbered (n : Nat) : List String → String
  | [] => ""
  | cause :: causes =>
    "\n    " ++ toString n ++ ": " ++ indent "       " cause ++ numbered (n + 1) causes

/-- The text of a failure. A single cause has no number. -/
def text (f : Failure) : String :=
  "Error: " ++ f.message ++
    match f.causes with
    | [] => ""
    | [cause] => "\n\nCaused by:\n    " ++ indent "    " cause
    | causes => "\n\nCaused by:" ++ numbered 0 causes

end Failure

end CodeOutline.Command

namespace CodeOutline

/-- The message of an error and those of what lies behind it. -/
def SettingsError.causes : SettingsError → List String
  | e@(.unreadable _ reason) => [e.message, reason]
  | e => [e.message]

/-- The message of an error and those of what lies behind it. -/
def RegistryError.causes : RegistryError → List String
  | e@(.rule (.invalidPattern _ cause)) => [e.message, cause.message]
  | e => [e.message]

/-- The message of an error and those of what lies behind it. -/
def ScanError.causes : ScanError → List String
  | .registry e => e.causes
  | e@(.invalidGlob _ error) => [e.message, error.message]
  | e => [e.message]

end CodeOutline
