import DeclTree.Syntax.Node
/-!
The payloads of nodes, one structure for each shape of node. An index field that a node leaves out
holds the missing index.
-/
namespace DeclTree.Syntax

/-- Identifier tokens, identifier names and predefined types. -/
structure Identifier where
  text : String
  deriving DecidableEq, Inhabited

/-- A name with type arguments, such as `List<T>`. -/
structure GenericName where
  identifier : NodeIndex := .missing
  typeArguments : NodeList := []
  deriving DecidableEq, Inhabited

/-- The names `A.B` and `alias::B`. -/
structure QualifiedName where
  left : NodeIndex := .missing
  right : NodeIndex := .missing
  deriving DecidableEq, Inhabited

structure CompilationUnit where
  externs : NodeList := []
  usings : NodeList := []
  attributeLists : NodeList := []
  members : NodeList := []
  /-- The `#r` directives of a script. -/
  referenceDirectives : NodeList := []
  deriving DecidableEq, Inhabited

structure ExternAlias where
  identifier : NodeIndex := .missing
  deriving DecidableEq, Inhabited

structure UsingDirective where
  globalKeyword : NodeIndex := .missing
  staticKeyword : NodeIndex := .missing
  /-- The identifier `X` of `using X = A.B;`. -/
  aliasName : NodeIndex := .missing
  name : NodeIndex := .missing
  deriving DecidableEq, Inhabited

structure ReferenceDirective where
  file : String
  deriving DecidableEq, Inhabited

structure AttributeList where
  /-- The word before the colon, such as `assembly` or `return`. -/
  target : Option String := none
  attributes : NodeList := []
  deriving DecidableEq, Inhabited

structure AttributeEntry where
  name : NodeIndex := .missing
  arguments : NodeList := []
  deriving DecidableEq, Inhabited

/-- Namespaces with braces, and file-scoped ones. -/
structure Namespace where
  attributeLists : NodeList := []
  modifiers : NodeList := []
  name : NodeIndex := .missing
  externs : NodeList := []
  usings : NodeList := []
  members : NodeList := []
  deriving DecidableEq, Inhabited

/-- Classes, structs, interfaces and records. -/
structure TypeDecl where
  attributeLists : NodeList := []
  modifiers : NodeList := []
  identifier : NodeIndex := .missing
  typeParameters : Option NodeList := none
  /-- The parameters of a primary constructor. -/
  parameterList : Option NodeList := none
  baseList : Option NodeList := none
  constraintClauses : NodeList := []
  members : NodeList := []
  deriving DecidableEq, Inhabited

structure Delegate where
  attributeLists : NodeList := []
  modifiers : NodeList := []
  returnType : NodeIndex := .missing
  identifier : NodeIndex := .missing
  typeParameters : Option NodeList := none
  parameters : NodeList := []
  constraintClauses : NodeList := []
  deriving DecidableEq, Inhabited

structure EnumDecl where
  attributeLists : NodeList := []
  modifiers : NodeList := []
  identifier : NodeIndex := .missing
  baseList : Option NodeList := none
  members : NodeList := []
  deriving DecidableEq, Inhabited

structure EnumMember where
  attributeLists : NodeList := []
  identifier : NodeIndex := .missing
  value : NodeIndex := .missing
  deriving DecidableEq, Inhabited

/-- Fields and field-like events. -/
structure Field where
  attributeLists : NodeList := []
  modifiers : NodeList := []
  typeNode : NodeIndex := .missing
  declarators : NodeList := []
  deriving DecidableEq, Inhabited

structure Declarator where
  identifier : NodeIndex := .missing
  initializer : NodeIndex := .missing
  deriving DecidableEq, Inhabited

/-- Methods, operators, conversions, constructors and destructors. -/
structure Method where
  attributeLists : NodeList := []
  modifiers : NodeList := []
  returnType : NodeIndex := .missing
  /-- The name before the dot of an explicit interface implementation. -/
  explicitInterface : NodeIndex := .missing
  /-- Operators have none. -/
  identifier : NodeIndex := .missing
  /-- The operator, or `implicit` or `explicit` for a conversion. -/
  operatorToken : NodeIndex := .missing
  checkedKeyword : NodeIndex := .missing
  typeParameters : Option NodeList := none
  parameters : NodeList := []
  constraintClauses : NodeList := []
  body : NodeIndex := .missing
  deriving DecidableEq, Inhabited

/-- Properties, events with accessors, and indexers. -/
structure Property where
  attributeLists : NodeList := []
  modifiers : NodeList := []
  typeNode : NodeIndex := .missing
  explicitInterface : NodeIndex := .missing
  /-- Indexers have none. -/
  identifier : NodeIndex := .missing
  /-- The parameters of an indexer. -/
  parameters : NodeList := []
  accessors : Option NodeList := none
  initializer : NodeIndex := .missing
  deriving DecidableEq, Inhabited

structure Accessor where
  attributeLists : NodeList := []
  modifiers : NodeList := []
  keyword : NodeIndex := .missing
  body : NodeIndex := .missing
  deriving DecidableEq, Inhabited

structure Parameter where
  attributeLists : NodeList := []
  modifiers : NodeList := []
  typeNode : NodeIndex := .missing
  identifier : NodeIndex := .missing
  defaultValue : NodeIndex := .missing
  deriving DecidableEq, Inhabited

structure TypeParameter where
  attributeLists : NodeList := []
  identifier : NodeIndex := .missing
  deriving DecidableEq, Inhabited

structure ConstraintClause where
  name : NodeIndex := .missing
  constraints : NodeList := []
  deriving DecidableEq, Inhabited

structure GlobalStatement where
  attributeLists : NodeList := []
  modifiers : NodeList := []
  statement : NodeIndex := .missing
  deriving DecidableEq, Inhabited

/-- What error recovery puts in the place of a member that it cannot complete. -/
structure IncompleteMember where
  attributeLists : NodeList := []
  modifiers : NodeList := []
  typeNode : NodeIndex := .missing
  deriving DecidableEq, Inhabited

/-- Statements and expressions. -/
structure Composite where
  children : NodeList := []
  deriving DecidableEq, Inhabited

/-- The number of type parameters in an optional list. -/
def arity (typeParameters : Option NodeList) : UInt32 :=
  UInt32.ofNat (typeParameters.getD []).length

end DeclTree.Syntax
