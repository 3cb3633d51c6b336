import CodeOutline.Language
import CodeOutline.Regex.Compile

/-! # Rules

A rule finds the declarations of one language: its pattern matches a declaration, and its family
says which groups of the pattern are the parts of a signature.
-/

namespace CodeOutline

/-- Groups a pattern of a family cannot do without. Of each list one group is enough. -/
def Family.requiredGroups : Family → List (List String)
  | .keyword => [["name"]]
  | .colonAnnotated => [["name"]]
  | .modifier => [["name"]]
  | .returnTypeFirst => [["ret"], ["name"], ["args"]]
  | .arrow => [["fn_name", "arrow_name", "method_name"]]

structure Rule where
  language : Language
  family : Family
  /-- The text of the pattern. -/
  pattern : String
  regex : Regex
  deriving Repr

/-- Why a pattern makes no rule. -/
inductive RuleError
  | invalidPattern (language : Language) (cause : Regex.PatternError)
  /-- `group` names the alternatives of the group that is missing, with bars between them. -/
  | missingGroup (language : Language) (family : Family) (group : String)
  deriving DecidableEq, Repr

def RuleError.message : RuleError → String
  | .invalidPattern language cause =>
    "invalid pattern for " ++ language.name ++ ": " ++ cause.message
  | .missingGroup language family group =>
    "pattern for " ++ language.name ++ " has no '" ++ group ++ "' group, required by the " ++
      family.name ++ " family"

/-- The first requirement of a family that the groups of a pattern do not meet. -/
def Family.unmet? (family : Family) (groups : List String) : Option (List String) :=
  family.requiredGroups.find? fun alternatives => !alternatives.any groups.contains

/-- The rule of a pattern. -/
def Rule.compile (language : Language) (family : Family) (pattern : String) :
    Except RuleError Rule :=
  match Regex.compile pattern with
  | .error cause => .error (.invalidPattern language cause)
  | .ok regex =>
    match family.unmet? regex.groupNames with
    | some alternatives => .error (.missingGroup language family ("|".intercalate alternatives))
    | none => .ok ⟨language, family, pattern, regex⟩

end CodeOutline
