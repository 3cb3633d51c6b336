import CodeOutline.Text.Raw

/-! # Arguments

What the arguments of the command ask for. Without the name of a task in the first place the
arguments are those of a scan. Arguments are raw, and only those that name a file may be no text.
-/

namespace CodeOutline.Command

/-- How a report is written. -/
inductive Format
  | markdown
  | json
  | compact
  deriving DecidableEq, Repr

def Format.ofName? : String → Option Format
  | "markdown" => some .markdown
  | "json" => some .json
  | "compact" => some .compact
  | _ => none

structure ScanArguments where
  /-- The directory to scan, or else the working directory. -/
  path : Option RawText
  format : Format
  /-- Takes the place of the limit of the settings. -/
  maxSignatures : Option Nat
  /-- Globs beside those of the settings. -/
  exclude : List String
  deriving DecidableEq, Repr

inductive Task
  | scan (arguments : ScanArguments)
  | languages
  | init (force : Bool)
  deriving DecidableEq, Repr

/-- A task and the settings file named for it. -/
structure Invocation where
  task : Task
  settings : Option RawText
  deriving DecidableEq, Repr

/-- Why arguments ask for no task. -/
inductive Stop
  | misuse
  | help
  | version
  deriving DecidableEq, Repr

/-! ## Options -/

/-- What the first argument makes of those after it. -/
inductive Scope
  /-- No task is named. -/
  | bare
  | scan
  | languages
  | init
  deriving DecidableEq, Repr

namespace Scope

def ofName? : String → Option Scope
  | "scan" => some .scan
  | "languages" => some .languages
  | "init" => some .init
  | _ => none

def isScan : Scope → Bool
  | .bare => true
  | .scan => true
  | .languages => false
  | .init => false

end Scope

inductive Flag
  | verbose
  | force
  | help
  | version
  | config
  | format
  | maxSignatures
  | exclude
  deriving DecidableEq, Repr

namespace Flag

def ofName? : String → Option Flag
  | "verbose" => some .verbose
  | "force" => some .force
  | "help" => some .help
  | "version" => some .version
  | "config" => some .config
  | "format" => some .format
  | "max-signatures" => some .maxSignatures
  | "exclude" => some .exclude
  | _ => none

def ofLetter? : Char → Option Flag
  | 'v' => some .verbose
  | 'h' => some .help
  | 'V' => some .version
  | 'c' => some .config
  | 'f' => some .format
  | 'e' => some .exclude
  | _ => none

def takesValue : Flag → Bool
  | .verbose => false
  | .force => false
  | .help => false
  | .version => false
  | .config => true
  | .format => true
  | .maxSignatures => true
  | .exclude => true

def allowedIn (scope : Scope) : Flag → Bool
  | .verbose => true
  | .force => scope = .init
  | .help => true
  | .version => scope = .bare
  | .config => true
  | .format => scope.isScan
  | .maxSignatures => scope.isScan
  | .exclude => scope.isScan

end Flag

/-- A number in decimal digits, with or without a plus sign, of at most 64 bits. -/
def count? (s : String) : Option Nat :=
  let digits := match s.toList with
    | '+' :: cs => cs
    | cs => cs
  if digits.isEmpty || !digits.all Char.isDigit then none
  else
    let n := digits.foldl (fun n c => n * 10 + (c.toNat - 48)) 0
    if n < Nat.pow 2 64 then some n else none

/-- What the arguments read so far have given. -/
structure Given where
  verbose : Bool
  force : Bool
  config : Option RawText
  format : Option Format
  maxSignatures : Option Nat
  exclude : List String
  path : Option RawText
  deriving DecidableEq, Repr

namespace Given

def nothing : Given := ⟨false, false, none, none, none, [], none⟩

/-- Gives something that may be given once only. -/
def once {α : Type} (old : Option α) (new : Option α) (give : α → Given) : Except Stop Given :=
  match old, new with
  | none, some value => .ok (give value)
  | _, _ => .error .misuse

/-- A flag that takes no value. -/
def raise (g : Given) : Flag → Except Stop Given
  | .verbose => if g.verbose then .error .misuse else .ok { g with verbose := true }
  | .force => if g.force then .error .misuse else .ok { g with force := true }
  | .help => .error .help
  | .version => .error .version
  | _ => .error .misuse

/-- A value that names a file. -/
def fileName? (value : RawText) : Option RawText :=
  if value.isEmpty then none else some value

/-- A flag with its value. -/
def set (g : Given) (value : RawText) : Flag → Except Stop Given
  | .config => once g.config (fileName? value) fun c => { g with config := some c }
  | .format => once g.format (value.text?.bind Format.ofName?) fun f => { g with format := some f }
  | .maxSignatures =>
    once g.maxSignatures (value.text?.bind count?) fun n => { g with maxSignatures := some n }
  | .exclude =>
    match value.text? with
    | some glob => .ok { g with exclude := g.exclude ++ [glob] }
    | none => .error .misuse
  | _ => .error .misuse

/-- An argument that is no flag: the directory, where there is a scan. -/
def setPath (g : Given) (scope : Scope) (value : RawText) : Except Stop Given :=
  if scope.isScan then once g.path (fileName? value) fun p => { g with path := some p }
  else .error .misuse

end Given

/-! ## Reading -/

/-- The byte that flags start with. -/
def hyphen : UInt8 := 0x2D

/-- The byte between a flag and its value. -/
def equalsSign : UInt8 := 0x3D

/-- A flag after two hyphens. With the value still to come it is given back. -/
def readLong (scope : Scope) (g : Given) (bytes : List UInt8) :
    Except Stop (Given × Option Flag) :=
  let name : RawText := ⟨bytes.takeWhile (· != equalsSign)⟩
  match (name.text?.bind Flag.ofName?).filter (·.allowedIn scope),
    bytes.dropWhile (· != equalsSign) with
  | none, _ => .error .misuse
  | some flag, [] =>
    if flag.takesValue then .ok (g, some flag) else (g.raise flag).map (·, none)
  | some flag, _ :: value =>
    if flag.takesValue then (g.set ⟨value⟩ flag).map (·, none) else .error .misuse

/-- Flags after one hyphen, up to the first that takes a value, which is the rest. With the value
still to come the flag is given back. -/
def readLetters (scope : Scope) (g : Given) : List UInt8 → Except Stop (Given × Option Flag)
  | [] => .ok (g, none)
  | b :: bs =>
    match (Flag.ofLetter? (Char.ofNat b.toNat)).filter (·.allowedIn scope) with
    | none => .error .misuse
    | some flag =>
      if flag.takesValue then
        match bs with
        | [] => .ok (g, some flag)
        | first :: value =>
          let value := if first = equalsSign then value else first :: value
          (g.set ⟨value⟩ flag).map (·, none)
      else
        match g.raise flag with
        | .ok g => readLetters scope g bs
        | .error stop => .error stop

/-- The argument starts like a flag. A single hyphen does not. -/
def isFlag (argument : RawText) : Bool :=
  match argument.bytes with
  | first :: _ :: _ => first = hyphen
  | _ => false

/-- Arguments after two hyphens that stand alone, none of which is a flag. -/
def readPaths (scope : Scope) (g : Given) (arguments : List RawText) : Except Stop Given :=
  arguments.foldlM (fun g argument => g.setPath scope argument) g

/-- Reads arguments from left to right. `open?` is a flag that waits for its value. -/
def readArguments (scope : Scope) : Given → (open? : Option Flag) → List RawText →
    Except Stop Given
  | g, none, [] => .ok g
  | _, some _, [] => .error .misuse
  | g, some flag, argument :: arguments =>
    if isFlag argument then .error .misuse
    else
      match g.set argument flag with
      | .ok g => readArguments scope g none arguments
      | .error stop => .error stop
  | g, none, argument :: arguments =>
    let next : Except Stop (Given × Option Flag) :=
      match isFlag argument, argument.bytes.drop 1 with
      | true, b :: bs => if b = hyphen then readLong scope g bs else readLetters scope g (b :: bs)
      | _, _ => (g.setPath scope argument).map (·, none)
    if argument = "--" then readPaths scope g arguments
    else
      match next with
      | .ok (g, flag) => readArguments scope g flag arguments
      | .error stop => .error stop

/-- The invocation that is given in a scope. -/
def Given.invocation (g : Given) : Scope → Invocation
  | .languages => ⟨.languages, g.config⟩
  | .init => ⟨.init g.force, g.config⟩
  | _ => ⟨.scan ⟨g.path, g.format.getD .markdown, g.maxSignatures, g.exclude⟩, g.config⟩

/-- The invocation that arguments ask for in a scope. -/
def Invocation.ofScope (scope : Scope) (arguments : List RawText) : Except Stop Invocation :=
  (readArguments scope .nothing none arguments).map (·.invocation scope)

/-- The task that an argument names. -/
def Scope.ofArgument? (argument : RawText) : Option Scope :=
  argument.text?.bind ofName?

/-- Help can be asked for a task by its name. -/
def readHelp : List RawText → Stop
  | [] => .help
  | [name] => if name = "help" || (Scope.ofArgument? name).isSome then .help else .misuse
  | _ => .misuse

/-- The invocation that arguments ask for. -/
def Invocation.ofArguments : List RawText → Except Stop Invocation
  | [] => Invocation.ofScope .bare []
  | first :: others =>
    if first = "help" then .error (readHelp others)
    else
      match Scope.ofArgument? first with
      | some scope => Invocation.ofScope scope others
      | none => Invocation.ofScope .bare (first :: others)

end CodeOutline.Command
