import CodeOutline.Extraction
import CodeOutline.Rule.Builtin
import CodeOutline.Settings.Basic

/-! # Registries

A registry says which language the files of an extension are in, and which rule finds the
declarations of a language. Settings are laid over the built-in registry.
-/

namespace CodeOutline

/-- Why settings make no registry. -/
inductive RegistryError
  | rule (error : RuleError)
  | unknownLanguage (name : String)
  | invalidExtension (extension : String)
  deriving DecidableEq, Repr

def RegistryError.message : RegistryError → String
  | .rule error => error.message
  | .unknownLanguage name => Language.unknownMessage name
  | .invalidExtension extension => "extension '" ++ extension ++ "' must start with '.'"

structure Registry where
  /-- The rules, in the listing order of their languages. -/
  rules : List Rule
  extensions : Dictionary Language

namespace Registry

/-- The built-in rules and extensions. -/
def builtin : Registry :=
  ⟨Language.all.map Rule.builtin,
    Dictionary.ofList (Language.all.flatMap fun l => (Rule.builtinExtensions l).map (·, l))⟩

def ruleFor? (r : Registry) (l : Language) : Option Rule :=
  r.rules.find? (·.language = l)

/-- The language of the files of an extension, which is given with its point. -/
def languageFor? (r : Registry) (extension : String) : Option Language :=
  r.extensions.find? extension

/-- The extensions of the files of a language, in order. -/
def extensionsFor (r : Registry) (l : Language) : List String :=
  (r.extensions.entries.filter (·.2 = l)).map (·.1)

/-- Puts a rule in the place of the one for its language. -/
def replaceRule (r : Registry) (rule : Rule) : Registry :=
  { r with rules := r.rules.map fun old => if old.language = rule.language then rule else old }

def language (name : String) : Except RegistryError Language :=
  match Language.ofName? name with
  | some l => .ok l
  | none => .error (.unknownLanguage name)

/-- Adds an extension of a language that is given by its name. -/
def addExtension (r : Registry) (extension name : String) : Except RegistryError Registry := do
  if !isExtension extension then throw (.invalidExtension extension)
  let l ← language name
  return { r with extensions := r.extensions.insert extension l }

/-- Replaces the pattern of a language that is given by its name. Its family stays. -/
def replacePattern (r : Registry) (name pattern : String) : Except RegistryError Registry := do
  let l ← language name
  let family := ((r.ruleFor? l).map (·.family)).getD .keyword
  match Rule.compile l family pattern with
  | .ok rule => return r.replaceRule rule
  | .error error => throw (.rule error)

/-- The built-in registry with the extensions of the settings and then the patterns. -/
def ofSettings (s : LanguageSettings) : Except RegistryError Registry := do
  let r ← s.extensions.entries.foldlM (fun r e => r.addExtension e.1 e.2) builtin
  s.patterns.entries.foldlM (fun r e => r.replacePattern e.1 e.2) r

/-- The signatures of a source text in a language. -/
def extract (r : Registry) (l : Language) (content : String) :
    Except ExtractError (List Signature) :=
  match r.ruleFor? l with
  | some rule => rule.extract content
  | none => .error (.missingRule l)

end Registry

end CodeOutline
