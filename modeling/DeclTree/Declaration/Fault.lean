import DeclTree.Syntax.Shape
import DeclTree.Syntax.Kind.Name
/-!
Faults: the ways in which a syntax tree may be shaped as no parser would shape it. A fault leaves a
file without declarations. What is wrong in the source text is no fault but a diagnostic.
-/
namespace DeclTree

inductive Fault
  /-- The root is another kind of node, or none. -/
  | rootNotCompilationUnit (tree : TreeId) (node : NodeIndex) (found : Option SyntaxKind)
  /-- A list of members has an entry that is no node. -/
  | danglingMember (tree : TreeId) (node : NodeIndex) (container : SyntaxKind)
  /-- A list of members has an entry that can be no member. -/
  | unexpectedMember (tree : TreeId) (kind : SyntaxKind) (span : Span) (container : SyntaxKind)
  /-- A node has not got the payload of its shape. -/
  | missingPayload (tree : TreeId) (node : NodeIndex) (kind : SyntaxKind) (shape : Shape)
  /-- The members lead back to a node above them. No build comes to this result: it stands for one that
  never comes to an end. -/
  | endless (tree : TreeId)
  deriving DecidableEq, Repr

namespace Fault

/-- What messages call a payload. -/
def payloadText : Shape → String
  | .compilationUnit => "compilation unit"
  | .namespaceDecl => "namespace"
  | .typeDecl => "type declaration"
  | .delegate => "delegate"
  | .enumDecl => "enum"
  | _ => "node"

def foundText : Option SyntaxKind → String
  | some kind => s!"Some({kind.name})"
  | none => "None"

def message : Fault → String
  | rootNotCompilationUnit tree node found =>
    s!"tree {tree.toText}: root node {node.toNat} is {foundText found}, expected a compilation unit"
  | danglingMember tree node container =>
    s!"tree {tree.toText}: member index {node.toNat} of a {container.name} does not resolve to a node"
  | unexpectedMember tree kind span container =>
    s!"tree {tree.toText}: unexpected {kind.name} at {span.toText} in the member list of a {container.name}"
  | missingPayload tree node kind shape =>
    s!"tree {tree.toText}: {kind.name} node {node.toNat} has no {payloadText shape} data"
  | endless tree => s!"tree {tree.toText}: the members of a node lead back to it"

end Fault

end DeclTree
