import DeclTree.Span
import DeclTree.Text.Replace
/-!
Diagnostics: a code, a place, and the arguments of the code's message. The table here gives each
code its severity and the template of its message.
-/
namespace DeclTree

/-- How severe a diagnostic is. -/
inductive Severity
  | warning | error | suggestion | message
  deriving DecidableEq, Repr

namespace Severity

def toText : Severity → String
  | warning => "warning"
  | error => "error"
  | suggestion => "suggestion"
  | message => "message"

/-- The name of a severity as one word with a capital. -/
def name : Severity → String
  | warning => "Warning"
  | error => "Error"
  | suggestion => "Suggestion"
  | message => "Message"

end Severity

/-- The number by which users know a kind of diagnostic. -/
abbrev Code := UInt32

namespace Code

def constraintOnNonGeneric : Code := 80
def partialMisplaced : Code := 267
def duplicateModifier : Code := 1004
def modifiersOnNamespace : Code := 1671
def aliasedName : Code := 7000
def genericName : Code := 7002
def featureNotAvailable : Code := 8107
def globalUsingInNamespace : Code := 8914
def globalUsingOutOfOrder : Code := 8915
def emptyProgram : Code := 8937
def secondFileScopedNamespace : Code := 8954
def fileScopedAndNormalNamespace : Code := 8955
def fileScopedNamespaceNotFirst : Code := 8956

/-- A code is shown with at least four digits. -/
def toText (c : Code) : String :=
  let digits := Nat.toDigits 10 c.toNat
  "CS" ++ String.ofList (List.replicate (4 - digits.length) '0' ++ digits)

end Code

/-- What a code says: a template with the places `\x7b0\x7d`, `\x7b1\x7d`, … for arguments. -/
structure MessageEntry where
  code : Code
  severity : Severity
  template : String

/-- Every code that declarations report. -/
def messageTable : List MessageEntry := [
  ⟨Code.constraintOnNonGeneric, .error,
    "Constraints are not allowed on non-generic declarations"⟩,
  ⟨Code.partialMisplaced, .error,
    "The 'partial' modifier can only appear immediately before 'class', 'record', 'struct', 'interface', or a method return type."⟩,
  ⟨Code.duplicateModifier, .error, "Duplicate '\x7b0\x7d' modifier"⟩,
  ⟨Code.modifiersOnNamespace, .error,
    "A namespace declaration cannot have modifiers or attributes"⟩,
  ⟨Code.aliasedName, .error, "Unexpected use of an aliased name"⟩,
  ⟨Code.genericName, .error, "Unexpected use of a generic name"⟩,
  ⟨Code.featureNotAvailable, .error,
    "Feature '\x7b0\x7d' is not available in C# \x7b1\x7d. Please use language version \x7b2\x7d or greater."⟩,
  ⟨Code.globalUsingInNamespace, .error,
    "A global using directive cannot be used in a namespace declaration."⟩,
  ⟨Code.globalUsingOutOfOrder, .error,
    "A global using directive must precede all non-global using directives."⟩,
  ⟨Code.emptyProgram, .error, "At least one top-level statement must be non-empty."⟩,
  ⟨Code.secondFileScopedNamespace, .error,
    "Source file can only contain one file-scoped namespace declaration."⟩,
  ⟨Code.fileScopedAndNormalNamespace, .error,
    "Source file can not contain both file-scoped and normal namespace declarations."⟩,
  ⟨Code.fileScopedNamespaceNotFirst, .error,
    "File-scoped namespace must precede all other members in a file."⟩]

namespace Code

def entry? (c : Code) : Option MessageEntry := messageTable.find? (·.code == c)

def template? (c : Code) : Option String := c.entry?.map (·.template)

def severity? (c : Code) : Option Severity := c.entry?.map (·.severity)

end Code

/-- The text that stands in a template for the argument at an index. -/
def placeholder (index : Nat) : String := "\x7b" ++ toString index ++ "\x7d"

/-- Fills the places of a template from the index on. The arguments are filled in one after
another, each into the text that the ones before it have left. -/
def fillFrom (index : Nat) (template : String) : List String → String
  | [] => template
  | arg :: args => fillFrom (index + 1) (Text.replaceAll (placeholder index) arg template) args

def formatMessage (template : String) (args : List String) : String := fillFrom 0 template args

/-- A finding about the legality of a declaration. Two diagnostics with the same code and
location describe the same problem; the arguments only fill the message. -/
structure Diagnostic where
  code : Code
  location : Location
  args : List String
  deriving DecidableEq, Repr

namespace Diagnostic

/-- A code outside the table counts as an error. -/
def severity (d : Diagnostic) : Severity := d.code.severity?.getD .error

def isError (d : Diagnostic) : Bool := d.severity == .error

def message (d : Diagnostic) : String :=
  match d.code.template? with
  | some template => formatMessage template d.args
  | none => "unknown diagnostic " ++ d.code.toText

def toText (d : Diagnostic) : String :=
  s!"{d.location.toText} {d.code.toText}: {d.message}"

end Diagnostic

end DeclTree
