import DeclTree.Language
/-!
The arguments of the command. Options are read from left to right, and the first thing that stops
the reading decides: an error, or a request for the version or for help.
-/
namespace DeclTree.Command

/-- How results are written. -/
inductive OutputFormat
  | text | json
  deriving DecidableEq, Repr

/-- What the arguments ask for. -/
structure Arguments where
  inputs : List String := []
  config : Option String := none
  script : Bool := false
  submission : Bool := false
  languageVersion : Option LanguageVersion := none
  scriptClassName : Option String := none
  format : Option OutputFormat := none
  stats : Bool := false
  noColor : Bool := false
  deriving DecidableEq, Repr

/-- Why there are no arguments to go by. -/
inductive Stop
  | unknownOption (spelling : String)
  | missingValue (spelling : String)
  | unexpectedValue (spelling : String)
  | invalidValue (spelling value : String)
  | repeated (spelling : String)
  | missingInputs
  | version
  | help
  deriving DecidableEq, Repr

/-- Options that take a value. -/
inductive ValueOption
  | config | languageVersion | scriptClassName | format
  deriving DecidableEq, Repr

/-- Options that take none. -/
inductive Switch
  | script | submission | stats | noColor | version | help
  deriving DecidableEq, Repr

namespace ValueOption

def ofName? : String → Option ValueOption
  | "config" => some config
  | "lang-version" | "langversion" => some languageVersion
  | "script-class-name" => some scriptClassName
  | "format" => some format
  | _ => none

def spelling : ValueOption → String
  | config => "--config"
  | languageVersion => "--lang-version"
  | scriptClassName => "--script-class-name"
  | format => "--format"

end ValueOption

namespace Switch

def ofName? : String → Option Switch
  | "script" => some script
  | "submission" => some submission
  | "stats" => some stats
  | "no-color" => some noColor
  | "version" => some version
  | "help" => some help
  | _ => none

def spelling : Switch → String
  | script => "--script"
  | submission => "--submission"
  | stats => "--stats"
  | noColor => "--no-color"
  | version => "--version"
  | help => "--help"

end Switch

def OutputFormat.ofName? : String → Option OutputFormat
  | "text" => some text
  | "json" => some json
  | _ => none

namespace Arguments

/-- Adds an input. A path may not be empty. -/
def addInput (a : Arguments) (path : String) : Except Stop Arguments :=
  if path.isEmpty then .error (.invalidValue "inputs" path)
  else .ok { a with inputs := a.inputs ++ [path] }

/-- Sets an option that is not set yet. -/
def set (a : Arguments) (o : ValueOption) (value : String) : Except Stop Arguments :=
  let invalid : Except Stop Arguments := .error (.invalidValue o.spelling value)
  let again : Except Stop Arguments := .error (.repeated o.spelling)
  match o with
  | .config =>
    if a.config.isSome then again
    else if value.isEmpty then invalid
    else .ok { a with config := some value }
  | .languageVersion =>
    if a.languageVersion.isSome then again
    else match LanguageVersion.ofText? value with
    | some version => .ok { a with languageVersion := some version }
    | none => invalid
  | .scriptClassName =>
    if a.scriptClassName.isSome then again else .ok { a with scriptClassName := some value }
  | .format =>
    if a.format.isSome then again
    else match OutputFormat.ofName? value with
    | some format => .ok { a with format := some format }
    | none => invalid

/-- Turns on a switch that is not on yet. -/
def turnOn (a : Arguments) (s : Switch) : Except Stop Arguments :=
  let once (on : Bool) (b : Arguments) : Except Stop Arguments :=
    if on then .error (.repeated s.spelling) else .ok b
  match s with
  | .script => once a.script { a with script := true }
  | .submission => once a.submission { a with submission := true }
  | .stats => once a.stats { a with stats := true }
  | .noColor => once a.noColor { a with noColor := true }
  | .version => .error .version
  | .help => .error .help

/-- The name of a long option and the value attached to it, around the first equals sign. -/
def splitLong (cs : List Char) : String × Option String :=
  match cs.span (· != '=') with
  | (name, '=' :: value) => (String.ofList name, some (String.ofList value))
  | (name, _) => (String.ofList name, none)

/-- What an argument is, when no option waits for its value. -/
inductive Word
  /-- All that follows are inputs. -/
  | inputsOnly
  | input (path : String)
  | valueOption (o : ValueOption) (attached : Option String)
  | switch (s : Switch)
  | wrong (stop : Stop)

def readLong (arg : String) (cs : List Char) : Word :=
  let (name, attached) := splitLong cs
  match ValueOption.ofName? name, Switch.ofName? name with
  | some o, _ => .valueOption o attached
  | none, some s => if attached.isSome then .wrong (.unexpectedValue arg) else .switch s
  | none, none => .wrong (.unknownOption arg)

/-- A short option. The value of `-c` may be attached, with an equals sign or without. -/
def readShort (arg : String) : List Char → Word
  | ['c'] => .valueOption .config none
  | 'c' :: '=' :: value => .valueOption .config (some (String.ofList value))
  | 'c' :: value => .valueOption .config (some (String.ofList value))
  | 'V' :: _ => .switch .version
  | 'h' :: _ => .switch .help
  | _ => .wrong (.unknownOption arg)

/-- A lone dash is an input. -/
def readWord (arg : String) : Word :=
  match arg.toList with
  | ['-', '-'] => .inputsOnly
  | '-' :: '-' :: cs => readLong arg cs
  | ['-'] => .input arg
  | '-' :: cs => readShort arg cs
  | _ => .input arg

/-- Whether an argument can be the value of the option before it. -/
def isValue (arg : String) : Bool := !arg.startsWith "-" || arg == "-"

/-- Reads the arguments that are left, where an option may wait for its value. -/
def readFrom (a : Arguments) : Option ValueOption → List String → Except Stop Arguments
  | none, [] => .ok a
  | some o, [] => .error (.missingValue o.spelling)
  | some o, arg :: rest =>
    if isValue arg then do readFrom (← a.set o arg) none rest
    else .error (.missingValue o.spelling)
  | none, arg :: rest =>
    match readWord arg with
    | .inputsOnly => rest.foldlM addInput a
    | .input path => do readFrom (← a.addInput path) none rest
    | .valueOption o (some value) => do readFrom (← a.set o value) none rest
    | .valueOption o none => readFrom a (some o) rest
    | .switch s => do readFrom (← a.turnOn s) none rest
    | .wrong stop => .error stop

/-- Reads all arguments. There must be one input at least. -/
def read (args : List String) : Except Stop Arguments := do
  let a ← readFrom {} none args
  if a.inputs.isEmpty then .error .missingInputs else .ok a

end Arguments

end DeclTree.Command
