import DeclTree.Declaration.Hints
import DeclTree.Declaration.Members
import DeclTree.Declaration.Modifiers
/-!
What the types of the source say of themselves: classes and their like, delegates, and enums.
-/
namespace DeclTree.SyntaxTree

variable (t : SyntaxTree)

/-- The diagnostic for constraints on a type without type parameters. -/
def constraintDiagnostics (arity : UInt32) (clauses : NodeList) : List Diagnostic :=
  match clauses with
  | first :: _ =>
    if arity = 0 then [⟨Code.constraintOnNonGeneric, t.location first, []⟩] else []
  | [] => []

/-- The text of an identifier; a missing one has the empty text. -/
def declaredName (identifier : NodeIndex) : String :=
  (t.arena.identifierText? identifier).getD ""

/-- What a class, struct, interface or record says of itself. The hints of the file's aliases count
for every type of the file. -/
def classHeader (fileHints : AttributeHints) (i : NodeIndex) (kind : TypeKind)
    (d : Syntax.TypeDecl) : TypeHeader :=
  let arity := Syntax.arity d.typeParameters
  let summary := t.arena.memberSummary d.members false d.parameterList.isSome
  { reference := t.reference i
    nameLocation := t.location d.identifier
    diagnostics := t.constraintDiagnostics arity d.constraintClauses ++
      t.modifierDiagnostics d.modifiers kind
    kind
    name := t.declaredName d.identifier
    arity
    modifiers := t.modifiersOf d.modifiers
    facts := summary.facts ∪ .when (!d.attributeLists.isEmpty) .hasAnyAttributes ∪
      .when d.baseList.isSome .hasBaseDeclarations
    memberNames := summary.names
    hints := t.arena.attributeHints d.attributeLists ∪ fileHints }

/-- What a delegate says of itself. It has members that are not written, so it always counts as
having members that are no types. -/
def delegateHeader (fileHints : AttributeHints) (i : NodeIndex) (d : Syntax.Delegate) :
    TypeHeader :=
  let arity := Syntax.arity d.typeParameters
  { reference := t.reference i
    nameLocation := t.location d.identifier
    diagnostics := t.constraintDiagnostics arity d.constraintClauses ++
      t.modifierDiagnostics d.modifiers .delegateType
    kind := .delegateType
    name := t.declaredName d.identifier
    arity
    modifiers := t.modifiersOf d.modifiers
    facts := .single .hasAnyNonTypeMembers ∪
      .when (!d.attributeLists.isEmpty) .hasAnyAttributes
    hints := t.arena.attributeHints d.attributeLists ∪ fileHints }

def enumHeader (fileHints : AttributeHints) (i : NodeIndex) (d : Syntax.EnumDecl) : TypeHeader :=
  let summary := t.arena.enumSummary d.members
  { reference := t.reference i
    nameLocation := t.location d.identifier
    diagnostics := t.modifierDiagnostics d.modifiers .enumType
    kind := .enumType
    name := t.declaredName d.identifier
    modifiers := t.modifiersOf d.modifiers
    facts := summary.facts ∪ .when (!d.attributeLists.isEmpty) .hasAnyAttributes ∪
      .when d.baseList.isSome .hasBaseDeclarations
    memberNames := summary.names
    hints := t.arena.attributeHints d.attributeLists ∪ fileHints }

end DeclTree.SyntaxTree
