import DeclTree.Declaration.Basic
import DeclTree.Syntax.Kind.Token
/-!
From the modifier tokens of a type, delegate or enum to a set of modifiers, with the checks that need
nothing but the tokens: repeated modifiers, the place of `partial`, and features that the language
version lacks.
-/
namespace DeclTree

/-- A modifier token: the node, its kind, the modifier it stands for, and its place in the list. -/
structure ModifierToken where
  node : NodeIndex
  kind : SyntaxKind
  modifier : Modifier
  isLast : Bool

namespace ModifierToken

/-- The modifier tokens of a list. Entries that are no modifier are left out, but they do take a
place. -/
def ofList (a : Arena) : NodeList → List ModifierToken
  | [] => []
  | i :: rest =>
    match a.kindOf? i with
    | some kind =>
      match Modifier.ofKind? kind with
      | some modifier => ⟨i, kind, modifier, rest.isEmpty⟩ :: ofList a rest
      | none => ofList a rest
    | none => ofList a rest

end ModifierToken

namespace SyntaxTree

variable (t : SyntaxTree)

/-- The diagnostic for a feature that the language version of the tree does not have. -/
def featureDiagnostics (f : Feature) (place : NodeIndex) : List Diagnostic :=
  let version := t.options.version
  if version.supports f then []
  else [⟨Code.featureNotAvailable, t.location place,
    [f.toText, version.toText, f.since.toText]⟩]

/-- The diagnostics at one token, after tokens for the modifiers in `seen`. Only the first
repetition in a list is reported; `repeated` says that there has been one. -/
def tokenDiagnostics (seen : Modifiers) (repeated : Bool) (token : ModifierToken) :
    List Diagnostic :=
  let isFirst := !seen.contains token.modifier
  let gate := match token.modifier with
    | .partialMod => if isFirst then t.featureDiagnostics .partialTypes token.node else []
    | .fileMod => if isFirst then t.featureDiagnostics .fileTypes token.node else []
    | _ => []
  let misplaced := if token.modifier = .partialMod ∧ !token.isLast then
      [⟨Code.partialMisplaced, t.location token.node, []⟩] else []
  let duplicate := if !isFirst ∧ !repeated then
      [⟨Code.duplicateModifier, t.location token.node, [token.kind.keywordText?.getD ""]⟩]
    else []
  gate ++ misplaced ++ duplicate

/-- The diagnostics at the tokens of a list, in order. -/
def listDiagnostics (seen : Modifiers) (repeated : Bool) : List ModifierToken → List Diagnostic
  | [] => []
  | token :: rest =>
    t.tokenDiagnostics seen repeated token ++
      listDiagnostics (seen ∪ .single token.modifier)
        (repeated || seen.contains token.modifier) rest

/-- The diagnostic for a feature that a keyword needs, at the first token with the keyword. -/
def keywordDiagnostics (tokens : NodeList) (keyword : SyntaxKind) (f : Feature) :
    List Diagnostic :=
  match tokens.find? fun i => t.arena.kindOf? i == some keyword with
  | some token => t.featureDiagnostics f token
  | none => []

/-- The diagnostics for modifiers that are features of their own on a type of this kind. -/
def kindDiagnostics (tokens : NodeList) (kind : TypeKind) : List Diagnostic :=
  match kind with
  | .classType => t.keywordDiagnostics tokens .staticKeyword .staticClasses
  | .structType | .recordStructType =>
    t.keywordDiagnostics tokens .readOnlyKeyword .readonlyStructs ++
      t.keywordDiagnostics tokens .refKeyword .refStructs
  | _ => []

/-- The modifiers that the tokens of a list stand for. -/
def modifiersOf (tokens : NodeList) : Modifiers :=
  Modifiers.combineAccessibility
    (.ofList ((ModifierToken.ofList t.arena tokens).map (·.modifier)))

/-- The diagnostics of the modifier list of a type of the given kind. -/
def modifierDiagnostics (tokens : NodeList) (kind : TypeKind) : List Diagnostic :=
  t.listDiagnostics ∅ false (ModifierToken.ofList t.arena tokens) ++
    t.kindDiagnostics tokens kind

end SyntaxTree

end DeclTree
