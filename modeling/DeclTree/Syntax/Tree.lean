import DeclTree.Language
import DeclTree.Syntax.Name
import DeclTree.Syntax.Statement
/-!
Syntax trees: an arena with its root, the name of its file, and how the file was parsed. A reference
into a tree is an index with the range that the node had, so that a stale one can be told.
-/
namespace DeclTree

/-- How a file was parsed. -/
structure ParseOptions where
  kind : SourceKind := .regular
  version : LanguageVersion := .latest
  deriving DecidableEq, Repr, Inhabited

/-- A node of a tree, with the range by which it is found again. -/
structure SyntaxReference where
  tree : TreeId
  node : NodeIndex
  span : Span
  deriving DecidableEq, Repr

def SyntaxReference.location (r : SyntaxReference) : Location := ⟨r.tree, r.span⟩

/-- One parsed file. -/
structure SyntaxTree where
  id : TreeId
  fileName : String
  options : ParseOptions
  arena : Arena
  root : NodeIndex
  deriving DecidableEq

namespace SyntaxTree

variable (t : SyntaxTree)

def isScript : Bool := t.options.kind == .script

/-- The range of a node; what is no node has the empty range at the start of the file. -/
def spanOf (i : NodeIndex) : Span := ((t.arena.get? i).map (·.span)).getD (.point 0)

def reference (i : NodeIndex) : SyntaxReference := ⟨t.id, i, t.spanOf i⟩

def location (i : NodeIndex) : Location := ⟨t.id, t.spanOf i⟩

/-- The node of a reference, if it is a reference into this tree and the node has its range. -/
def resolve? (r : SyntaxReference) : Option Header :=
  if r.tree = t.id then (t.arena.get? r.node).filter (·.span == r.span) else none

def resolveKind? (r : SyntaxReference) : Option SyntaxKind := (t.resolve? r).map (·.kind)

theorem resolve?_reference (i : NodeIndex) : t.resolve? (t.reference i) = t.arena.get? i := by
  cases h : t.arena.get? i <;> simp [resolve?, reference, spanOf, h, Option.filter]

end SyntaxTree

end DeclTree
