import CodeOutline.Rule.Basic

/-! # Built-in rules

One rule for each language, with the extensions of its files. Each pattern stands as a text and,
beside it, as the expression that the text writes.
-/

namespace CodeOutline.Rule.Builtin

open Regex

/-! ## Parts of patterns -/

/-- `[a-zA-Z_]` -/
def nameStart : CharSet := ⟨[(0x41, 0x5A), (0x5F, 0x5F), (0x61, 0x7A)]⟩

/-- `[a-zA-Z0-9_]` -/
def nameChar : CharSet := ⟨[(0x30, 0x39), (0x41, 0x5A), (0x5F, 0x5F), (0x61, 0x7A)]⟩

/-- `\b` -/
def edge : Regex := .look (.wordEdge true)

/-- `\s` -/
def blank : Regex := .set .blank

/-- `\s*` -/
def blanks : Regex := star blank

/-- `\s+` -/
def someBlanks : Regex := .plus true blank

/-- `[a-zA-Z_][a-zA-Z0-9_]*` -/
def identifier : Regex := .seq (.set nameStart) (star (.set nameChar))

/-- `[a-zA-Z0-9_]+` -/
def wordOf : Regex := .plus true (.set nameChar)

/-- `.*?` -/
def shortest : Regex := lazyStar (.set .any)

/-- `[^)]*` -/
def untilParenthesis : Regex := star (.set (CharSet.complement ⟨[(0x29, 0x29)]⟩))

/-- The characters of a text, one after the other. -/
def letters (cs : List Char) : List Regex := cs.map Regex.char

def openParenthesis : Regex := .char '('

def closeParenthesis : Regex := .char ')'

def openBrace : Regex := .char '\x7b'

/-! ## Expressions -/

/-- `\bdef\s+(?P<name>…)\s*\((?P<args>.*?)\)(?:\s*->\s*(?P<ret>.*?))?:` -/
def pythonRegex : Regex :=
  concat ([edge] ++ letters ['d', 'e', 'f'] ++ [someBlanks, .group "name" identifier, blanks,
    openParenthesis, .group "args" shortest, closeParenthesis,
    opt (concat ([blanks] ++ letters ['-', '>'] ++ [blanks, .group "ret" shortest])), .char ':'])

/-- A `function` with a name, or an arrow assigned to a name, or a method with a body. -/
def arrowRegex : Regex :=
  choice [
    concat ([edge] ++ letters ['f', 'u', 'n', 'c', 't', 'i', 'o', 'n'] ++
      [someBlanks, .group "fn_name" identifier, blanks, openParenthesis,
        .group "fn_args" shortest, closeParenthesis,
        opt (concat [blanks, .char ':', blanks,
          .group "fn_ret" (.plus false (.set (CharSet.complement
            ⟨[(0x28, 0x29), (0x3B, 0x3B), (0x3D, 0x3D), (0x7B, 0x7B), (0x7D, 0x7D)]⟩))),
          blanks, openBrace])]),
    concat [edge,
      choice [concat (letters ['c', 'o', 'n', 's', 't']), concat (letters ['l', 'e', 't']),
        concat (letters ['v', 'a', 'r'])],
      someBlanks, .group "arrow_name" identifier, blanks, .char '=', blanks,
      opt (concat (letters ['a', 's', 'y', 'n', 'c'] ++ [blanks])),
      openParenthesis, .group "arrow_args" shortest, closeParenthesis,
      opt (concat [blanks, .char ':', blanks,
        .group "arrow_ret" (.plus false (.set (CharSet.complement ⟨[(0x3D, 0x3D)]⟩)))]),
      blanks, .char '=', .char '>'],
    concat [.group "method_name" identifier, blanks, openParenthesis,
      .group "method_args" untilParenthesis, closeParenthesis, blanks, openBrace]]

/-- `\bfn\s+(?P<name>…)\s*(?:<.*?>)?\s*\((?P<args>.*?)\)(?:\s*->\s*(?P<ret>.*?))?\s*\x7b` -/
def rustRegex : Regex :=
  concat ([edge] ++ letters ['f', 'n'] ++ [someBlanks, .group "name" identifier, blanks,
    opt (concat [.char '<', shortest, .char '>']), blanks,
    openParenthesis, .group "args" shortest, closeParenthesis,
    opt (concat ([blanks] ++ letters ['-', '>'] ++ [blanks, .group "ret" shortest])),
    blanks, openBrace])

/-- `\bfunc\s+(?:\([^)]*\)\s*)?(?P<name>…)\s*\((?P<args>.*?)\)\s*(?P<ret>.*?)\x7b` -/
def goRegex : Regex :=
  concat ([edge] ++ letters ['f', 'u', 'n', 'c'] ++ [someBlanks,
    opt (concat [openParenthesis, untilParenthesis, closeParenthesis, blanks]),
    .group "name" identifier, blanks, openParenthesis, .group "args" shortest, closeParenthesis,
    blanks, .group "ret" shortest, openBrace])

/-- `(?P<ret>[a-zA-Z0-9_<>?]+)\s+(?P<name>…)\s*\((?P<args>.*?)\)\s*(?:async)?\s*\x7b` -/
def dartRegex : Regex :=
  concat [
    .group "ret" (.plus true (.set ⟨[(0x30, 0x39), (0x3C, 0x3C), (0x3E, 0x3F), (0x41, 0x5A),
      (0x5F, 0x5F), (0x61, 0x7A)]⟩)),
    someBlanks, .group "name" identifier, blanks, openParenthesis, .group "args" shortest,
    closeParenthesis, blanks, opt (concat (letters ['a', 's', 'y', 'n', 'c'])), blanks, openBrace]

/-- `[\w<>\[\]]` -/
def typeChar : CharSet :=
  CharSet.word.union ⟨[(0x3C, 0x3C), (0x3E, 0x3E), (0x5B, 0x5B), (0x5D, 0x5D)]⟩

/-- A modifier or a blank, spaces, a type, a name, arguments, and `throws` up to the body. -/
def javaRegex : Regex :=
  concat [
    choice [concat (letters ['p', 'u', 'b', 'l', 'i', 'c']),
      concat (letters ['p', 'r', 'o', 't', 'e', 'c', 't', 'e', 'd']),
      concat (letters ['p', 'r', 'i', 'v', 'a', 't', 'e']),
      concat (letters ['s', 't', 'a', 't', 'i', 'c']), blank],
    .plus true (.char ' '), .plus true (.set typeChar), someBlanks, .group "name" wordOf,
    blanks, openParenthesis, .group "args" untilParenthesis, closeParenthesis, blanks,
    opt (concat (letters ['t', 'h', 'r', 'o', 'w', 's'] ++ [blank, shortest])), openBrace]

/-- A `fun` with an optional list of type parameters, receiver and result. -/
def kotlinRegex : Regex :=
  concat ([edge] ++ letters ['f', 'u', 'n'] ++ [someBlanks,
    opt (concat [.char '<', star (.set (CharSet.complement ⟨[(0x3E, 0x3E)]⟩)), .char '>', blanks]),
    opt (concat [.plus true (.set ⟨[(0x30, 0x39), (0x3C, 0x3C), (0x3E, 0x3E), (0x41, 0x5A),
      (0x5F, 0x5F), (0x61, 0x7A)]⟩), .char '.']),
    .group "name" wordOf, blanks, openParenthesis, .group "args" untilParenthesis,
    closeParenthesis,
    opt (concat [blanks, .char ':', blanks, .group "ret" (.plus true (.set ⟨[(0x2E, 0x2E),
      (0x30, 0x39), (0x3C, 0x3C), (0x3E, 0x3F), (0x41, 0x5A), (0x5F, 0x5F), (0x61, 0x7A)]⟩))]),
    blanks, openBrace])

/-- A `func` with optional effects and result. -/
def swiftRegex : Regex :=
  concat ([edge] ++ letters ['f', 'u', 'n', 'c'] ++ [someBlanks, .group "name" wordOf, blanks,
    openParenthesis, .group "args" untilParenthesis, closeParenthesis,
    star (concat [someBlanks, choice [concat (letters ['a', 's', 'y', 'n', 'c']),
      concat (letters ['t', 'h', 'r', 'o', 'w', 's']),
      concat (letters ['r', 'e', 't', 'h', 'r', 'o', 'w', 's'])]]),
    opt (concat ([blanks] ++ letters ['-', '>'] ++ [blanks, .group "ret" (.plus true (.set
      ⟨[(0x2E, 0x2E), (0x30, 0x39), (0x3C, 0x3C), (0x3E, 0x3F), (0x41, 0x5B), (0x5D, 0x5D),
        (0x5F, 0x5F), (0x61, 0x7A)]⟩))])),
    blanks, openBrace])

/-- `(?P<ret>[a-zA-Z0-9_]+)\s+(?P<name>[a-zA-Z0-9_]+)\s*\((?P<args>[^)]*)\)\s*\x7b` -/
def cRegex : Regex :=
  concat [.group "ret" wordOf, someBlanks, .group "name" wordOf, blanks, openParenthesis,
    .group "args" untilParenthesis, closeParenthesis, blanks, openBrace]

/-- As for C, with a qualified name or a destructor, and `const` after the arguments. -/
def cppRegex : Regex :=
  concat [.group "ret" wordOf, someBlanks,
    .group "name" (concat [star (concat ([wordOf] ++ letters [':', ':'])), opt (.char '~'), wordOf]),
    blanks, openParenthesis, .group "args" untilParenthesis, closeParenthesis, blanks,
    opt (concat (letters ['c', 'o', 'n', 's', 't'])), blanks, openBrace]

/-- A `function` with an optional result, which may start with a question mark. -/
def phpRegex : Regex :=
  concat ([edge] ++ letters ['f', 'u', 'n', 'c', 't', 'i', 'o', 'n'] ++ [someBlanks,
    .group "name" wordOf, blanks, openParenthesis, .group "args" untilParenthesis,
    closeParenthesis, blanks,
    opt (concat [.char ':', blanks, .group "ret" (.seq (opt (.char '?')) (.plus true (.set
      ⟨[(0x30, 0x39), (0x3C, 0x3C), (0x3E, 0x3E), (0x41, 0x5A), (0x5C, 0x5C), (0x5F, 0x5F),
        (0x61, 0x7A), (0x7C, 0x7C)]⟩)))]),
    blanks, openBrace])

/-! ## Rules -/

def arrowPattern : String :=
  "(?:\\bfunction\\s+(?P<fn_name>[a-zA-Z_][a-zA-Z0-9_]*)\\s*\\((?P<fn_args>.*?)\\)" ++
  "(?:\\s*:\\s*(?P<fn_ret>[^\x7b\x7d;=()]+?)\\s*\\\x7b)?" ++
  "|\\b(?:const|let|var)\\s+(?P<arrow_name>[a-zA-Z_][a-zA-Z0-9_]*)\\s*=\\s*(?:async\\s*)?" ++
  "\\((?P<arrow_args>.*?)\\)(?:\\s*:\\s*(?P<arrow_ret>[^=]+?))?\\s*=>" ++
  "|(?P<method_name>[a-zA-Z_][a-zA-Z0-9_]*)\\s*\\((?P<method_args>[^)]*)\\)\\s*\\\x7b)"

def python : Rule :=
  ⟨.python, .keyword, "\\bdef\\s+(?P<name>[a-zA-Z_][a-zA-Z0-9_]*)\\s*\\((?P<args>.*?)\\)" ++
    "(?:\\s*->\\s*(?P<ret>.*?))?:", pythonRegex⟩

def javascript : Rule := ⟨.javascript, .arrow, arrowPattern, arrowRegex⟩

def typescript : Rule := ⟨.typescript, .arrow, arrowPattern, arrowRegex⟩

def rust : Rule :=
  ⟨.rust, .keyword, "\\bfn\\s+(?P<name>[a-zA-Z_][a-zA-Z0-9_]*)\\s*(?:<.*?>)?\\s*" ++
    "\\((?P<args>.*?)\\)(?:\\s*->\\s*(?P<ret>.*?))?\\s*\\\x7b", rustRegex⟩

def go : Rule :=
  ⟨.go, .keyword, "\\bfunc\\s+(?:\\([^)]*\\)\\s*)?(?P<name>[a-zA-Z_][a-zA-Z0-9_]*)\\s*" ++
    "\\((?P<args>.*?)\\)\\s*(?P<ret>.*?)\\\x7b", goRegex⟩

def dart : Rule :=
  ⟨.dart, .returnTypeFirst, "(?P<ret>[a-zA-Z0-9_<>?]+)\\s+(?P<name>[a-zA-Z_][a-zA-Z0-9_]*)\\s*" ++
    "\\((?P<args>.*?)\\)\\s*(?:async)?\\s*\\\x7b", dartRegex⟩

def java : Rule :=
  ⟨.java, .modifier, "(?:public|protected|private|static|\\s) +[\\w<>\\[\\]]+\\s+" ++
    "(?P<name>[a-zA-Z0-9_]+)\\s*\\((?P<args>[^)]*)\\)\\s*(?:throws\\s.*?)?\\\x7b", javaRegex⟩

def kotlin : Rule :=
  ⟨.kotlin, .colonAnnotated, "\\bfun\\s+(?:<[^>]*>\\s*)?(?:[a-zA-Z0-9_<>]+\\.)?" ++
    "(?P<name>[a-zA-Z0-9_]+)\\s*\\((?P<args>[^)]*)\\)" ++
    "(?:\\s*:\\s*(?P<ret>[a-zA-Z0-9_<>?.]+))?\\s*\\\x7b", kotlinRegex⟩

def swift : Rule :=
  ⟨.swift, .keyword, "\\bfunc\\s+(?P<name>[a-zA-Z0-9_]+)\\s*\\((?P<args>[^)]*)\\)" ++
    "(?:\\s+(?:async|throws|rethrows))*(?:\\s*->\\s*(?P<ret>[a-zA-Z0-9_<>\\[\\]?.]+))?\\s*\\\x7b",
    swiftRegex⟩

def c : Rule :=
  ⟨.c, .returnTypeFirst, "(?P<ret>[a-zA-Z0-9_]+)\\s+(?P<name>[a-zA-Z0-9_]+)\\s*" ++
    "\\((?P<args>[^)]*)\\)\\s*\\\x7b", cRegex⟩

def cpp : Rule :=
  ⟨.cpp, .returnTypeFirst, "(?P<ret>[a-zA-Z0-9_]+)\\s+" ++
    "(?P<name>(?:[a-zA-Z0-9_]+::)*~?[a-zA-Z0-9_]+)\\s*\\((?P<args>[^)]*)\\)\\s*(?:const)?\\s*\\\x7b",
    cppRegex⟩

def php : Rule :=
  ⟨.php, .colonAnnotated, "\\bfunction\\s+(?P<name>[a-zA-Z0-9_]+)\\s*\\((?P<args>[^)]*)\\)\\s*" ++
    "(?::\\s*(?P<ret>\\??[a-zA-Z0-9_<>\\\\|]+))?\\s*\\\x7b", phpRegex⟩

end CodeOutline.Rule.Builtin

namespace CodeOutline.Rule

/-- The built-in rule of a language. -/
def builtin : Language → Rule
  | .python => Builtin.python
  | .javascript => Builtin.javascript
  | .typescript => Builtin.typescript
  | .rust => Builtin.rust
  | .go => Builtin.go
  | .dart => Builtin.dart
  | .java => Builtin.java
  | .kotlin => Builtin.kotlin
  | .swift => Builtin.swift
  | .c => Builtin.c
  | .cpp => Builtin.cpp
  | .php => Builtin.php

/-- The extensions of the files of a language. -/
def builtinExtensions : Language → List String
  | .python => [".py"]
  | .javascript => [".js", ".jsx", ".mjs"]
  | .typescript => [".ts", ".tsx"]
  | .rust => [".rs"]
  | .go => [".go"]
  | .dart => [".dart"]
  | .java => [".java"]
  | .kotlin => [".kt", ".kts"]
  | .swift => [".swift"]
  | .c => [".c", ".h"]
  | .cpp => [".cpp", ".hpp", ".cc"]
  | .php => [".php"]

end CodeOutline.Rule
