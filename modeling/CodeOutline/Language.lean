/-! # Languages

The twelve languages whose declarations are recognised, in the order in which they are listed,
and the five families of declaration grammar.
-/

namespace CodeOutline

inductive Language
  | python | javascript | typescript | rust | go | dart | java | kotlin | swift | c | cpp | php
  deriving DecidableEq, Repr

namespace Language

/-- Every language, in listing order. -/
def all : List Language :=
  [.python, .javascript, .typescript, .rust, .go, .dart, .java, .kotlin, .swift, .c, .cpp, .php]

/-- The name used in settings and in reports. -/
def name : Language → String
  | .python => "python"
  | .javascript => "javascript"
  | .typescript => "typescript"
  | .rust => "rust"
  | .go => "go"
  | .dart => "dart"
  | .java => "java"
  | .kotlin => "kotlin"
  | .swift => "swift"
  | .c => "c"
  | .cpp => "cpp"
  | .php => "php"

/-- The language of that name; names are case-sensitive. -/
def ofName? (s : String) : Option Language :=
  all.find? (·.name == s)

/-- What is said of a name that no language has. -/
def unknownMessage (name : String) : String :=
  "unknown language '" ++ name ++ "'"

theorem ofName?_name (l : Language) : ofName? l.name = some l := by
  cases l <;> decide

end Language

/-- The grammars of declarations. The family of a rule says which groups of its pattern are the
name, the arguments and the result of a declaration. -/
inductive Family
  /-- `keyword name(args) -> result`. -/
  | keyword
  /-- `keyword name(args): result`. -/
  | colonAnnotated
  /-- `result name(args)`. -/
  | returnTypeFirst
  /-- `function name(args)`, `const name = (args) =>` or `name(args) \x7b`. -/
  | arrow
  /-- `modifier result name(args)`, where the result is not told apart. -/
  | modifier
  deriving DecidableEq, Repr

namespace Family

def all : List Family :=
  [.keyword, .colonAnnotated, .returnTypeFirst, .arrow, .modifier]

/-- The name used in listings. -/
def name : Family → String
  | .keyword => "keyword"
  | .colonAnnotated => "colon-annotated"
  | .returnTypeFirst => "return-type-first"
  | .arrow => "arrow"
  | .modifier => "modifier"

/-- The family of that name. -/
def ofName? (s : String) : Option Family :=
  all.find? (·.name == s)

theorem ofName?_name (f : Family) : ofName? f.name = some f := by
  cases f <;> decide

end Family

end CodeOutline
