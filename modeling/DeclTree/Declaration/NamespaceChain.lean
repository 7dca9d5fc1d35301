import DeclTree.Declaration.Basic
/-!
Namespace declarations. A dotted name stands for namespaces within each other, one for each segment.
The innermost one holds what is declared; the outermost one has the diagnostics.
-/
namespace DeclTree

namespace SyntaxTree

variable (t : SyntaxTree)

/-- What is wrong with the place of a namespace, if anything. It depends on the kind of the
container, and on whether a file-scoped namespace comes first in its file. -/
def placementCode? (i : NodeIndex) (kind : SyntaxKind) : Option Code :=
  let parent := t.arena.parentOf i
  let parentKind? := t.arena.kindOf? parent
  if kind = .fileScopedNamespaceDeclaration then
    match parentKind? with
    | some .fileScopedNamespaceDeclaration => some Code.secondFileScopedNamespace
    | some .namespaceDeclaration => some Code.fileScopedAndNormalNamespace
    | some .compilationUnit => do
      let unit : Syntax.CompilationUnit ← t.arena.payload? .compilationUnit parent
      let first ← unit.members.head?
      if first = i then none else some Code.fileScopedNamespaceNotFirst
    | _ => none
  else if parentKind? = some .fileScopedNamespaceDeclaration then
    some Code.fileScopedAndNormalNamespace
  else none

/-- The diagnostic of a code at a node, if there is a node to put it at. -/
def reportAt (code : Code) (place : Option NodeIndex) : List Diagnostic :=
  (place.map fun i => ⟨code, t.location i, []⟩).toList

/-- The diagnostics of a namespace declaration, in the order in which they are reported. -/
def namespaceDiagnostics (i : NodeIndex) (kind : SyntaxKind) (d : Syntax.Namespace) :
    List Diagnostic :=
  let place := t.location d.name
  let segments := t.arena.segments d.name
  let placement := ((t.placementCode? i kind).map fun code => ⟨code, place, []⟩).toList
  let generic :=
    if segments.any fun s => t.arena.isGenericSegment s.segment then
      [⟨Code.genericName, place, []⟩]
    else []
  let aliased :=
    if segments.any fun s => t.arena.isAliasedSegment s.segment then
      [⟨Code.aliasedName, place, []⟩]
    else []
  let globalKeywords := (d.usings.filterMap fun i =>
    (t.arena.payload? .usingDirective i).map fun (u : Syntax.UsingDirective) =>
      u.globalKeyword).filter (·.isPresent)
  placement ++ generic ++ aliased ++
    t.reportAt Code.modifiersOnNamespace d.attributeLists.head? ++
    t.reportAt Code.modifiersOnNamespace d.modifiers.head? ++
    t.reportAt Code.globalUsingInNamespace globalKeywords.head?

/-- What an outer segment says of itself. It refers to the part of the name that it ends. -/
def outerHeader (s : NameSegment) : NamespaceHeader where
  reference := t.reference s.upTo
  nameLocation := t.location (t.arena.simpleName s.segment)
  name := t.arena.segmentText s.segment

/-- What the innermost segment says of itself. It refers to the whole declaration. -/
def innerHeader (i : NodeIndex) (d : Syntax.Namespace) (segment : NodeIndex) :
    NamespaceHeader where
  reference := t.reference i
  nameLocation := t.location (t.arena.simpleName segment)
  name := t.arena.segmentText segment
  hasUsings := !d.usings.isEmpty
  hasExternAliases := !d.externs.isEmpty

/-- The namespaces that a namespace declaration stands for, around the declarations within it. -/
def namespaceChain (i : NodeIndex) (kind : SyntaxKind) (d : Syntax.Namespace)
    (inner : List Declaration) : Declaration :=
  let segments := t.arena.segments d.name
  let diagnostics := t.namespaceDiagnostics i kind d
  let innermost := t.innerHeader i d ((segments.getLast?.map (·.segment)).getD d.name)
  match segments.dropLast.map t.outerHeader with
  | [] => .namespaceDecl { innermost with diagnostics } inner
  | outermost :: between =>
    .namespaceDecl { outermost with diagnostics }
      [between.foldr (fun header declaration => .namespaceDecl header [declaration])
        (.namespaceDecl innermost inner)]

end SyntaxTree

end DeclTree
