import CodeOutline.Regex.Search
import CodeOutline.Rule.Basic
import CodeOutline.Signature

/-! # Extraction

The signatures of a source text: one for each match of a rule, unless the match is a statement that
only looks like a declaration.
-/

namespace CodeOutline

/-- Why a text has no signatures at all. -/
inductive ExtractError
  | missingRule (language : Language)
  /-- A text with a NUL character is no source text. -/
  | binaryContent
  deriving DecidableEq, Repr

def ExtractError.message : ExtractError → String
  | .missingRule language => "no match rule registered for " ++ language.name
  | .binaryContent => "content looks binary"

namespace Extraction

/-- Words of statements, which stand where a declaration has a name or a type. -/
def controlKeywords : List String :=
  ["if", "else", "elif", "for", "foreach", "while", "do", "switch", "case", "catch", "return",
    "throw", "new", "delete", "sizeof", "typeof", "with", "function"]

def isControlKeyword (word : String) : Bool :=
  controlKeywords.contains (Text.trim word)

/-- What a group has captured, or the empty text if it took no part in the match. -/
def groupText (m : Regex.Match) (name : String) : String :=
  String.ofList ((m.group? name).getD [])

def hasGroup (m : Regex.Match) (name : String) : Bool :=
  (m.captures.find? name).isSome

/-- Name, arguments and result, each in a group of its own. -/
def keywordSignature? (m : Regex.Match) : Option Signature :=
  Signature.ofTexts? (groupText m "name") (groupText m "args") (groupText m "ret")

/-- The result comes first, and neither it nor the name is a word of a statement. -/
def returnTypeFirstSignature? (m : Regex.Match) : Option Signature :=
  let result := groupText m "ret"
  let name := groupText m "name"
  if Text.isBlankText result || isControlKeyword result || isControlKeyword name then none
  else Signature.ofTexts? name (groupText m "args") result

/-- The groups of whichever alternative has matched. Methods have no result. -/
def arrowSignature? (m : Regex.Match) : Option Signature :=
  let (name, arguments, result) :=
    if hasGroup m "fn_name" then
      (groupText m "fn_name", groupText m "fn_args", groupText m "fn_ret")
    else if hasGroup m "arrow_name" then
      (groupText m "arrow_name", groupText m "arrow_args", groupText m "arrow_ret")
    else (groupText m "method_name", groupText m "method_args", "")
  if isControlKeyword name then none else Signature.ofTexts? name arguments result

/-- Name and arguments only. -/
def modifierSignature? (m : Regex.Match) : Option Signature :=
  let name := groupText m "name"
  if isControlKeyword name then none else Signature.ofTexts? name (groupText m "args") ""

/-- The signature of a match, read as the family of its rule says. -/
def signature? : Family → Regex.Match → Option Signature
  | .keyword => keywordSignature?
  | .colonAnnotated => keywordSignature?
  | .returnTypeFirst => returnTypeFirstSignature?
  | .arrow => arrowSignature?
  | .modifier => modifierSignature?

end Extraction

/-- The signatures that a rule finds in a text, in order. -/
def Rule.signatures (rule : Rule) (text : List Char) : List Signature :=
  (rule.regex.allMatches text).filterMap (Extraction.signature? rule.family)

/-- The signatures of a source text. -/
def Rule.extract (rule : Rule) (content : String) : Except ExtractError (List Signature) :=
  let text := content.toList
  if text.contains '\x00' then .error .binaryContent else .ok (rule.signatures text)

end CodeOutline
