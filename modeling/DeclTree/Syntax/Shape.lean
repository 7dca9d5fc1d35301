import DeclTree.Syntax.Payload
import DeclTree.Syntax.Kind.Family
/-!
Shapes: the forms of payload a node may have. A shape fixes the type of the payload and the nodes
that the payload links to, and a kind of node fixes its shape.
-/
namespace DeclTree

/-- The form of a payload. -/
inductive Shape
  | identifier | genericName | qualifiedName | compilationUnit | externAlias | usingDirective
  | referenceDirective | attributeList | attributeEntry | namespaceDecl | typeDecl | delegate
  | enumDecl | enumMember | field | declarator | method | property | accessor | parameter
  | typeParameter | constraintClause | globalStatement | incompleteMember | composite
  deriving DecidableEq, Repr

namespace Shape

def all : List Shape := [
  identifier, genericName, qualifiedName, compilationUnit, externAlias, usingDirective,
  referenceDirective, attributeList, attributeEntry, namespaceDecl, typeDecl, delegate, enumDecl,
  enumMember, field, declarator, method, property, accessor, parameter, typeParameter,
  constraintClause, globalStatement, incompleteMember, composite]

theorem mem_all (s : Shape) : s ∈ all := by cases s <;> decide

/-- The payloads of a shape. -/
abbrev Data : Shape → Type
  | .identifier => Syntax.Identifier
  | .genericName => Syntax.GenericName
  | .qualifiedName => Syntax.QualifiedName
  | .compilationUnit => Syntax.CompilationUnit
  | .externAlias => Syntax.ExternAlias
  | .usingDirective => Syntax.UsingDirective
  | .referenceDirective => Syntax.ReferenceDirective
  | .attributeList => Syntax.AttributeList
  | .attributeEntry => Syntax.AttributeEntry
  | .namespaceDecl => Syntax.Namespace
  | .typeDecl => Syntax.TypeDecl
  | .delegate => Syntax.Delegate
  | .enumDecl => Syntax.EnumDecl
  | .enumMember => Syntax.EnumMember
  | .field => Syntax.Field
  | .declarator => Syntax.Declarator
  | .method => Syntax.Method
  | .property => Syntax.Property
  | .accessor => Syntax.Accessor
  | .parameter => Syntax.Parameter
  | .typeParameter => Syntax.TypeParameter
  | .constraintClause => Syntax.ConstraintClause
  | .globalStatement => Syntax.GlobalStatement
  | .incompleteMember => Syntax.IncompleteMember
  | .composite => Syntax.Composite

/-- Every index that a payload mentions, single ones first and then those of its lists. -/
def links : (s : Shape) → s.Data → NodeList
  | .identifier, _ => []
  | .genericName, d => [d.identifier] ++ d.typeArguments
  | .qualifiedName, d => [d.left, d.right]
  | .compilationUnit, d =>
    d.externs ++ d.usings ++ d.attributeLists ++ d.members ++ d.referenceDirectives
  | .externAlias, d => [d.identifier]
  | .usingDirective, d => [d.globalKeyword, d.staticKeyword, d.aliasName, d.name]
  | .referenceDirective, _ => []
  | .attributeList, d => d.attributes
  | .attributeEntry, d => [d.name] ++ d.arguments
  | .namespaceDecl, d =>
    [d.name] ++ d.attributeLists ++ d.modifiers ++ d.externs ++ d.usings ++ d.members
  | .typeDecl, d =>
    [d.identifier] ++ d.attributeLists ++ d.modifiers ++ d.typeParameters.getD [] ++
    d.parameterList.getD [] ++ d.baseList.getD [] ++ d.constraintClauses ++ d.members
  | .delegate, d =>
    [d.returnType, d.identifier] ++ d.attributeLists ++ d.modifiers ++
    d.typeParameters.getD [] ++ d.parameters ++ d.constraintClauses
  | .enumDecl, d =>
    [d.identifier] ++ d.attributeLists ++ d.modifiers ++ d.baseList.getD [] ++ d.members
  | .enumMember, d => [d.identifier, d.value] ++ d.attributeLists
  | .field, d => [d.typeNode] ++ d.attributeLists ++ d.modifiers ++ d.declarators
  | .declarator, d => [d.identifier, d.initializer]
  | .method, d =>
    [d.returnType, d.explicitInterface, d.identifier, d.operatorToken, d.checkedKeyword, d.body] ++
    d.attributeLists ++ d.modifiers ++ d.typeParameters.getD [] ++ d.parameters ++
    d.constraintClauses
  | .property, d =>
    [d.typeNode, d.explicitInterface, d.identifier, d.initializer] ++ d.attributeLists ++
    d.modifiers ++ d.parameters ++ d.accessors.getD []
  | .accessor, d => [d.keyword, d.body] ++ d.attributeLists ++ d.modifiers
  | .parameter, d => [d.typeNode, d.identifier, d.defaultValue] ++ d.attributeLists ++ d.modifiers
  | .typeParameter, d => [d.identifier] ++ d.attributeLists
  | .constraintClause, d => [d.name] ++ d.constraints
  | .globalStatement, d => [d.statement] ++ d.attributeLists ++ d.modifiers
  | .incompleteMember, d => [d.typeNode] ++ d.attributeLists ++ d.modifiers
  | .composite, d => d.children

end Shape

namespace SyntaxKind

/-- The shape of the nodes of a kind. Tokens without a text of their own have none. -/
def shape? (k : SyntaxKind) : Option Shape :=
  if k.isComposite then some .composite
  else if k.isNamespace then some .namespaceDecl
  else if k.isClassLike then some .typeDecl
  else match k with
  | .identifierToken | .identifierName | .predefinedType => some .identifier
  | .genericName => some .genericName
  | .qualifiedName | .aliasQualifiedName => some .qualifiedName
  | .compilationUnit => some .compilationUnit
  | .externAliasDirective => some .externAlias
  | .usingDirective => some .usingDirective
  | .referenceDirectiveTrivia => some .referenceDirective
  | .attributeList => some .attributeList
  | .attributeEntry => some .attributeEntry
  | .delegateDeclaration => some .delegate
  | .enumDeclaration => some .enumDecl
  | .enumMemberDeclaration => some .enumMember
  | .fieldDeclaration | .eventFieldDeclaration => some .field
  | .variableDeclarator => some .declarator
  | .methodDeclaration | .operatorDeclaration | .conversionOperatorDeclaration
  | .constructorDeclaration | .destructorDeclaration =>
    some .method
  | .propertyDeclaration | .eventDeclaration | .indexerDeclaration => some .property
  | .accessorDeclaration => some .accessor
  | .parameter => some .parameter
  | .typeParameter => some .typeParameter
  | .typeParameterConstraintClause => some .constraintClause
  | .globalStatement => some .globalStatement
  | .incompleteMember => some .incompleteMember
  | _ => none

end SyntaxKind

end DeclTree
