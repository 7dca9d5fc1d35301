import DeclTree.Batch
import DeclTree.Command.Settings
import DeclTree.Files
import DeclTree.Report.Document
import DeclTree.Report.Outline
import DeclTree.Syntax.Stored
/-!
A run of the command: settings, inputs, trees, declarations, and what is written in the end.
-/
namespace DeclTree.Command

/-- Why a run comes to no result. -/
inductive RunError
  | unreadableConfig (path : String)
  | invalidConfig (path : String)
  | unknownVersion (text : String)
  | inputNotFound (path : String)
  | noTrees
  | unreadable (path : String)
  | invalidTree (path : String)
  | tooManyInputs
  deriving DecidableEq, Repr

namespace RunError

def message : RunError → String
  | unreadableConfig path => s!"failed to read config: {path}"
  | invalidConfig path => s!"failed to parse config: {path}"
  | unknownVersion text => s!"invalid languageVersion in config: {text}"
  | inputNotFound path => s!"input not found: {path}"
  | noTrees => "no syntax tree files found"
  | unreadable path => s!"failed to read {path}"
  | invalidTree path => s!"failed to parse syntax tree {path}"
  | tooManyInputs => "too many input files"

/-- The message with its cause, where there is more to say. -/
def fullMessage : RunError → String
  | unknownVersion text =>
    (unknownVersion text).message ++ ": " ++ LanguageVersion.unknownMessage text
  | tooManyInputs => tooManyInputs.message ++ ": out of range integral type conversion attempted"
  | e => e.message

end RunError

/-! ### Inputs -/

/-- The extension of stored trees. -/
def treeExtension : String := "json"

def isTreePath (path : List String) : Bool :=
  (path.getLast?.bind extension?) == some treeExtension

/-- The stored trees below a directory, in the order of their paths. -/
def treesBelow (directory : Entry) : List (List String) :=
  (directory.paths.filter isTreePath).mergeSort pathLe

/-- The paths that an input stands for: a file for itself, and a directory for its trees. -/
def expand (files : Files) (input : String) : Except RunError (List String) :=
  match files input with
  | some (.file _) => .ok [input]
  | some (.directory entries) => .ok ((treesBelow (.directory entries)).map (joinPath input))
  | none => .error (.inputNotFound input)

/-- The paths that all inputs stand for, in the order of the inputs. -/
def discover (files : Files) (inputs : List String) : Except RunError (List String) :=
  return (← inputs.mapM (expand files)).flatten

/-- The text of a file; a file that is not UTF-8 has none. -/
def textOf? (files : Files) (path : String) : Option String :=
  match files path with
  | some (.file content) => String.fromUTF8? content
  | _ => none

/-- Loads a tree. Its place among the inputs is its id, and a tree without a file name is named by
its path. -/
def loadTree (files : Files) (settings : Settings) (id : TreeId) (path : String) :
    Except RunError SyntaxTree := do
  let some text := textOf? files path | .error (.unreadable path)
  let some stored := SyntaxTree.load? text | .error (.invalidTree path)
  return { stored with
    id
    fileName := if stored.fileName.isEmpty then path else stored.fileName
    options := settings.apply stored.options }

/-- Loads the tree of a path by its place among the inputs. There are no ids for more places than a
word can count. -/
def loadNumbered (files : Files) (settings : Settings) (path : String) (n : Nat) :
    Except RunError SyntaxTree :=
  if n < UInt32.size then loadTree files settings ⟨UInt32.ofNat n⟩ path else .error .tooManyInputs

/-- Loads the trees of some paths, which are numbered from zero. -/
def loadTrees (files : Files) (settings : Settings) (paths : List String) :
    Except RunError (List SyntaxTree) :=
  paths.zipIdx.mapM fun (path, n) => loadNumbered files settings path n

/-! ### Runs -/

structure RunResult where
  files : List FileResult
  stats : Stats

namespace RunResult

def ofFiles (files : List FileResult) : RunResult := ⟨files, .ofResults files⟩

def hasErrors (r : RunResult) : Bool := r.stats.errors > 0

def hasFailures (r : RunResult) : Bool := r.stats.failed > 0

/-- A run that failed for some file has code 2, and otherwise one with an error has code 1. -/
def exitCode (r : RunResult) : UInt8 := if r.hasFailures then 2 else if r.hasErrors then 1 else 0

/-- What a run writes. Totals follow outlines where they are asked for; a document has its own. -/
def render (r : RunResult) (a : Arguments) (color : Bool) : String :=
  match a.format with
  | some .json => (Report.document r.files r.stats).print ++ "\n"
  | _ =>
    String.join (r.files.map (Report.outline color)) ++
      if a.stats then Report.statsLine r.stats ++ "\n" else ""

end RunResult

def loadConfig (files : Files) (path : String) : Except RunError Config := do
  let some text := textOf? files path | .error (.unreadableConfig path)
  let some config := Config.ofText? text | .error (.invalidConfig path)
  return config

def loadSettings (files : Files) (a : Arguments) : Except RunError Settings := do
  let config ← match a.config with
    | some path => loadConfig files path
    | none => pure {}
  (Settings.resolve a config).mapError .unknownVersion

/-- The settings of a run and the trees of its inputs; the first thing that goes wrong decides. -/
def load (files : Files) (a : Arguments) : Except RunError (Settings × List SyntaxTree) := do
  let settings ← loadSettings files a
  let paths ← discover files a.inputs
  if paths.isEmpty then throw .noTrees
  return (settings, ← loadTrees files settings paths)

/-- The whole run. -/
def run (files : Files) (a : Arguments) : Except RunError RunResult := do
  let (settings, trees) ← load files a
  return .ofFiles (declareFiles settings.declarations trees)

/-! ### The command -/

/-- What the command leaves behind. -/
structure Outcome where
  exitCode : UInt8
  output : String := ""
  errors : String := ""

def versionText : String := "csz-decls 0.1.0\n"

def helpText : String := "Usage: csz-decls [OPTIONS] <INPUTS>...\n"

/-- Whether the output is painted: only on a terminal, and not where that is declined. -/
def usesColor (a : Arguments) (isTerminal : Bool) : Bool := !a.noColor && isTerminal

/-- Runs the command with its arguments. -/
def execute (files : Files) (args : List String) (isTerminal : Bool) : Outcome :=
  match Arguments.read args with
  | .error .version => { exitCode := 0, output := versionText }
  | .error .help => { exitCode := 0, output := helpText }
  | .error _ => { exitCode := 2, errors := helpText }
  | .ok a =>
    match run files a with
    | .ok result =>
      { exitCode := result.exitCode, output := result.render a (usesColor a isTerminal) }
    | .error e => { exitCode := 2, errors := s!"error: {e.fullMessage}\n" }

end DeclTree.Command
