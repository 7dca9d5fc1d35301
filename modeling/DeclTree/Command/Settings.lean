import DeclTree.Command.Arguments
import DeclTree.Declaration.Synthetic
import DeclTree.Json.Decode
import DeclTree.Json.Parse
/-!
Settings: what the arguments and the configuration file say together. Arguments win, and a submission
is always a script.
-/
namespace DeclTree.Command

/-- What a configuration file says. -/
structure Config where
  languageVersion : Option String := none
  script : Option Bool := none
  submission : Option Bool := none
  scriptClassName : Option String := none
  deriving DecidableEq, Repr

namespace Config

/-- Reads a configuration. Every field may be left out, but there may be no other ones. -/
def ofJson? (j : Json) : Option Config := do
  let fs ← Json.fieldsBy? { allowsShortArray := true, allowsUnknown := false }
    ["languageVersion", "script", "submission", "scriptClassName"] j
  return {
    languageVersion := ← fs.optional "languageVersion" Json.str?
    script := ← fs.optional "script" Json.bool?
    submission := ← fs.optional "submission" Json.bool?
    scriptClassName := ← fs.optional "scriptClassName" Json.str? }

def ofText? (text : String) : Option Config := do ofJson? (← Json.parse? text)

end Config

/-- What holds for every tree of a run. -/
structure Settings where
  /-- The kind that every tree is taken for; otherwise each keeps its own. -/
  kind : Option SourceKind := none
  languageVersion : Option LanguageVersion := none
  declarations : DeclarationOptions := {}
  deriving DecidableEq, Repr

namespace Settings

/-- The parse options of a tree under some settings. -/
def apply (s : Settings) (options : ParseOptions) : ParseOptions where
  kind := s.kind.getD options.kind
  version := s.languageVersion.getD options.version

/-- The language version that is asked for. The error is a text that names no version. -/
def versionOf (a : Arguments) (c : Config) : Except String (Option LanguageVersion) :=
  match a.languageVersion, c.languageVersion with
  | some version, _ => .ok (some version)
  | none, some text =>
    match LanguageVersion.ofText? text with
    | some version => .ok (some version)
    | none => .error text
  | none, none => .ok none

/-- The settings that arguments and configuration make together. -/
def resolve (a : Arguments) (c : Config) : Except String Settings := do
  let isSubmission := a.submission || c.submission.getD false
  let isScript := isSubmission || a.script || c.script.getD false
  let languageVersion ← versionOf a c
  let standard : DeclarationOptions := {}
  return {
    kind := if isScript then some .script else none
    languageVersion
    declarations := {
      scriptClassName :=
        (a.scriptClassName <|> c.scriptClassName).getD standard.scriptClassName
      isSubmission } }

end Settings

end DeclTree.Command
