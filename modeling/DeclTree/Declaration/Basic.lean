import DeclTree.Declaration.Flags
import DeclTree.Diagnostic
import DeclTree.NameSet
import DeclTree.Syntax.Tree
/-!
Declaration trees: the namespaces and types of one file. What a declaration says of itself is its
header; below it are its children. Only namespaces hold namespaces, so the children of a type are
types by construction.
-/
namespace DeclTree

/-- What a type declaration is. The last four are not written in source. -/
inductive TypeKind
  | classType | structType | interfaceType | recordType | recordStructType | delegateType
  | enumType
  /-- The class that holds the top-level members of a script. -/
  | scriptClass
  /-- The same for an interactive submission. -/
  | submissionClass
  /-- The class that holds members which are written where none may be. -/
  | implicitClass
  /-- The class that holds top-level statements. -/
  | simpleProgram
  deriving DecidableEq, Repr

namespace TypeKind

/-- The name of a kind as one word. -/
def name : TypeKind → String
  | classType => "Class"
  | structType => "Struct"
  | interfaceType => "Interface"
  | recordType => "Record"
  | recordStructType => "RecordStruct"
  | delegateType => "Delegate"
  | enumType => "Enum"
  | scriptClass => "Script"
  | submissionClass => "Submission"
  | implicitClass => "ImplicitClass"
  | simpleProgram => "SimpleProgram"

/-- What readers call a kind: its keyword, or a description. -/
def toText : TypeKind → String
  | classType => "class"
  | structType => "struct"
  | interfaceType => "interface"
  | recordType => "record"
  | recordStructType => "record struct"
  | delegateType => "delegate"
  | enumType => "enum"
  | scriptClass => "script"
  | submissionClass => "submission"
  | implicitClass => "implicit class"
  | simpleProgram => "top-level program"

/-- Whether types of this kind are made up rather than read from source. -/
def isSynthetic : TypeKind → Bool
  | scriptClass | submissionClass | implicitClass | simpleProgram => true
  | _ => false

/-- The kind of the type that a node of this kind declares. -/
def ofSyntax? : SyntaxKind → Option TypeKind
  | .classDeclaration => some classType
  | .structDeclaration => some structType
  | .interfaceDeclaration => some interfaceType
  | .recordDeclaration => some recordType
  | .recordStructDeclaration => some recordStructType
  | .delegateDeclaration => some delegateType
  | .enumDeclaration => some enumType
  | _ => none

end TypeKind

/-- What a type declaration says of itself. -/
structure TypeHeader where
  reference : SyntaxReference
  nameLocation : Location
  diagnostics : List Diagnostic := []
  kind : TypeKind
  name : String
  arity : UInt32 := 0
  modifiers : Modifiers := ∅
  facts : TypeFacts := ∅
  memberNames : NameSet := ∅
  hints : AttributeHints := ∅
  deriving DecidableEq

/-- What one segment of a namespace declaration says of itself. -/
structure NamespaceHeader where
  reference : SyntaxReference
  nameLocation : Location
  diagnostics : List Diagnostic := []
  name : String
  hasUsings : Bool := false
  hasExternAliases : Bool := false
  deriving DecidableEq

/-- A type with the types nested in it. -/
inductive TypeDeclaration
  | mk (header : TypeHeader) (children : List TypeDeclaration)

namespace TypeDeclaration

def header : TypeDeclaration → TypeHeader
  | mk header _ => header

def children : TypeDeclaration → List TypeDeclaration
  | mk _ children => children

def hasMember (t : TypeDeclaration) (name : String) : Bool := t.header.memberNames.contains name

mutual
/-- The number of types in a type, itself included. -/
def size : TypeDeclaration → Nat
  | mk _ children => sizes children + 1

def sizes : List TypeDeclaration → Nat
  | [] => 0
  | t :: ts => t.size + sizes ts
end

end TypeDeclaration

/-- A namespace or a type. -/
inductive Declaration
  | namespaceDecl (header : NamespaceHeader) (children : List Declaration)
  | typeDecl (type : TypeDeclaration)

namespace Declaration

def name : Declaration → String
  | namespaceDecl header _ => header.name
  | typeDecl t => t.header.name

def reference : Declaration → SyntaxReference
  | namespaceDecl header _ => header.reference
  | typeDecl t => t.header.reference

def nameLocation : Declaration → Location
  | namespaceDecl header _ => header.nameLocation
  | typeDecl t => t.header.nameLocation

def diagnostics : Declaration → List Diagnostic
  | namespaceDecl header _ => header.diagnostics
  | typeDecl t => t.header.diagnostics

/-- What readers call a declaration: `namespace`, or the kind of the type. -/
def kindText : Declaration → String
  | namespaceDecl _ _ => "namespace"
  | typeDecl t => t.header.kind.toText

/-- The name of its kind as one word. -/
def kindName : Declaration → String
  | namespaceDecl _ _ => "Namespace"
  | typeDecl t => t.header.kind.name

def isSynthetic : Declaration → Bool
  | namespaceDecl _ _ => false
  | typeDecl t => t.header.kind.isSynthetic

/-- The declarations directly below one; below a type there are only types. -/
def children : Declaration → List Declaration
  | namespaceDecl _ children => children
  | typeDecl t => t.children.map typeDecl

def type? : Declaration → Option TypeDeclaration
  | namespaceDecl _ _ => none
  | typeDecl t => some t

mutual
/-- The number of declarations in a declaration, itself included. -/
def size : Declaration → Nat
  | namespaceDecl _ children => sizes children + 1
  | typeDecl t => t.size

def sizes : List Declaration → Nat
  | [] => 0
  | d :: ds => d.size + sizes ds
end

theorem sizes_append (ds es : List Declaration) : sizes (ds ++ es) = sizes ds + sizes es := by
  induction ds with
  | nil => simp [sizes]
  | cons d ds ih => simp [sizes, ih, Nat.add_assoc]

theorem sizes_map_typeDecl (ts : List TypeDeclaration) :
    sizes (ts.map typeDecl) = TypeDeclaration.sizes ts := by
  induction ts with
  | nil => rfl
  | cons t ts ih => simp [sizes, TypeDeclaration.sizes, size, ih]

theorem size_eq (d : Declaration) : d.size = sizes d.children + 1 := by
  cases d with
  | namespaceDecl header inner => simp [size, children]
  | typeDecl t =>
    cases t with
    | mk header inner =>
      simp [size, children, TypeDeclaration.size, TypeDeclaration.children, sizes_map_typeDecl]

end Declaration

/-- The directive `#r "file"` of a script. -/
structure ReferencedFile where
  file : String
  location : Location
  deriving DecidableEq, Repr

/-- The declarations of one file. -/
structure RootDeclaration where
  reference : SyntaxReference
  nameLocation : Location
  diagnostics : List Diagnostic
  hasGlobalUsings : Bool
  hasUsings : Bool
  hasExternAliases : Bool
  children : List Declaration
  /-- Only scripts have any. -/
  referencedFiles : List ReferencedFile
  hasAssemblyAttributes : Bool
  globalAliasHints : AttributeHints

end DeclTree
