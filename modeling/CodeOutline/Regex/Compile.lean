import CodeOutline.Regex.Expression.Parser
import CodeOutline.Regex.Footprint

/-! # Expressions from patterns

The regular expression that a pattern writes.
-/

namespace CodeOutline.Regex

/-- Why a pattern writes no expression. -/
inductive PatternError
  | malformed
  | tooBig
  deriving DecidableEq, Repr

/-- The text of an error. What the reader of patterns says of a malformed one stands as a mark. -/
def PatternError.message : PatternError → String
  | .malformed => "<regex error>"
  | .tooBig =>
    "Compiled regex exceeds size limit of " ++ toString footprintLimit ++ " bytes."

/-- The regular expression of a pattern that is well formed and within the limit of size. -/
def compile (pattern : String) : Except PatternError Regex :=
  match Expression.parse? pattern with
  | none => .error .malformed
  | some e =>
    match e.pattern? .initial with
    | none => .error .malformed
    | some (p, _) => if p.fits then .ok p.toRegex else .error .tooBig

end CodeOutline.Regex
