import DeclTree.Syntax.Draft
/-!
The calls by which a tree is composed, as values. A tree that calls alone have made is a run of a
list of calls, and a law of all such trees is a law of all lists.
-/
namespace DeclTree.Draft

open Syntax

/-- What a call gives back. -/
inductive Drafted
  | node (index : NodeIndex)
  | list (indices : NodeList)

/-- One call. Nodes and lists that it mentions were given back by calls before it. -/
inductive Call
  | modifiers (kinds : List SyntaxKind)
  | typeParameters (names : List String)
  | baseList (names : List String)
  | token (kind : SyntaxKind)
  | identifier (text : String)
  | identifierName (text : String)
  | predefinedType (text : String)
  | name (dotted : String)
  | qualifiedName (left right : NodeIndex)
  | aliasQualifiedName (aliasText name : String)
  | genericName (text : String) (arguments : List String)
  | compilationUnit (d : CompilationUnit)
  | externAlias (aliasText : String)
  | usingDirective (isGlobal isStatic : Bool) (aliasText : Option String) (target : String)
  | referenceDirective (file : String)
  | attributeEntry (name : String)
  | attributeList (target : Option String) (names : List String)
  | namespaceOf (name : String) (members : NodeList)
  | fileScopedNamespaceOf (name : String) (members : NodeList)
  | namespaceWith (kind : SyntaxKind) (d : Namespace)
  | typeOf (kind : SyntaxKind) (name : String) (members : NodeList)
  | typeWith (kind : SyntaxKind) (d : TypeDecl)
  | constraintClause (parameter constraint : String)
  | delegate (name : String)
  | delegateWith (d : Delegate)
  | enumOf (name : String) (members : List String)
  | enumWith (d : EnumDecl)
  | enumMember (name : String) (attributeLists : NodeList)
  | fieldWith (kind : SyntaxKind) (modifiers : List SyntaxKind) (names : List String)
  | parameter (modifiers : List SyntaxKind) (name : String)
  | method (name : String) (parameters : NodeList)
  | explicitInterfaceMethod (interfaceName name : String)
  | constructor (name : String) (isStatic : Bool)
  | destructor (name : String)
  | operator (kind : SyntaxKind) (parameterCount : Nat) (isChecked : Bool)
  | conversion (keyword : SyntaxKind) (isChecked : Bool)
  | methodWith (kind : SyntaxKind) (d : Method)
  | accessor (keyword : SyntaxKind) (attributeLists : NodeList)
  | property (name : String)
  | event (name : String)
  | indexer
  | incompleteMember
  | propertyWith (kind : SyntaxKind) (d : Property)
  | globalStatement (statement : NodeIndex)
  | composite (kind : SyntaxKind) (children : NodeList)
  | callStatement (callee : String)
  | invocation (callee : String)
  | localFunction (statements : NodeList)
  | awaitForeach (body : NodeIndex)
  | awaitUsing

/-- Composes the node of a call that makes one. -/
def asNode (draft : Drafting NodeIndex) : Drafting Drafted := Drafted.node <$> draft

def asList (draft : Drafting NodeList) : Drafting Drafted := Drafted.list <$> draft

namespace Call

def run : Call → Drafting Drafted
  | .modifiers kinds => asList (Draft.modifiers kinds)
  | .typeParameters names => asList (Draft.typeParameters names)
  | .baseList names => asList (Draft.baseList names)
  | .token kind => asNode (Draft.token kind)
  | .identifier text => asNode (Draft.identifier text)
  | .identifierName text => asNode (Draft.identifierName text)
  | .predefinedType text => asNode (Draft.predefinedType text)
  | .name dotted => asNode (Draft.name dotted)
  | .qualifiedName left right => asNode (Draft.qualifiedName left right)
  | .aliasQualifiedName aliasText text => asNode (Draft.aliasQualifiedName aliasText text)
  | .genericName text arguments => asNode (Draft.genericName text arguments)
  | .compilationUnit d => asNode (Draft.compilationUnit d)
  | .externAlias aliasText => asNode (Draft.externAlias aliasText)
  | .usingDirective isGlobal isStatic aliasText target =>
    asNode (Draft.usingDirective isGlobal isStatic aliasText target)
  | .referenceDirective file => asNode (Draft.referenceDirective file)
  | .attributeEntry text => asNode (Draft.attributeEntry text)
  | .attributeList target names => asNode (Draft.attributeList target names)
  | .namespaceOf text members => asNode (Draft.namespaceOf .namespaceDeclaration text members)
  | .fileScopedNamespaceOf text members =>
    asNode (Draft.namespaceOf .fileScopedNamespaceDeclaration text members)
  | .namespaceWith kind d => asNode (Draft.namespaceWith kind d)
  | .typeOf kind text members => asNode (Draft.typeOf kind text members)
  | .typeWith kind d => asNode (Draft.typeWith kind d)
  | .constraintClause subject constraint => asNode (Draft.constraintClause subject constraint)
  | .delegate text => asNode (Draft.delegate text)
  | .delegateWith d => asNode (Draft.delegateWith d)
  | .enumOf text members => asNode (Draft.enumOf text members)
  | .enumWith d => asNode (Draft.enumWith d)
  | .enumMember text attributeLists => asNode (Draft.enumMember text attributeLists)
  | .fieldWith kind kinds names => asNode (Draft.fieldWith kind kinds names)
  | .parameter kinds text => asNode (Draft.parameter kinds text)
  | .method text parameters => asNode (Draft.method text parameters)
  | .explicitInterfaceMethod interfaceName text =>
    asNode (Draft.explicitInterfaceMethod interfaceName text)
  | .constructor text isStatic => asNode (Draft.constructor text isStatic)
  | .destructor text => asNode (Draft.destructor text)
  | .operator kind parameterCount isChecked =>
    asNode (Draft.operator kind parameterCount isChecked)
  | .conversion keyword isChecked => asNode (Draft.conversion keyword isChecked)
  | .methodWith kind d => asNode (Draft.methodWith kind d)
  | .accessor keyword attributeLists => asNode (Draft.accessor keyword attributeLists)
  | .property text => asNode (Draft.property text)
  | .event text => asNode (Draft.event text)
  | .indexer => asNode Draft.indexer
  | .incompleteMember => asNode Draft.incompleteMember
  | .propertyWith kind d => asNode (Draft.propertyWith kind d)
  | .globalStatement statement => asNode (Draft.globalStatement statement)
  | .composite kind children => asNode (Draft.composite kind children)
  | .callStatement callee => asNode (Draft.callStatement callee)
  | .invocation callee => asNode (Draft.invocation callee)
  | .localFunction statements => asNode (Draft.localFunction statements)
  | .awaitForeach body => asNode (Draft.awaitForeach body)
  | .awaitUsing => asNode Draft.awaitUsing

/-- The nodes that a call mentions as children. -/
def children : Call → NodeList
  | .qualifiedName left right => [left, right]
  | .compilationUnit d => Shape.links .compilationUnit d
  | .namespaceOf _ members | .fileScopedNamespaceOf _ members | .typeOf _ _ members => members
  | .namespaceWith _ d => Shape.links .namespaceDecl d
  | .typeWith _ d => Shape.links .typeDecl d
  | .delegateWith d => Shape.links .delegate d
  | .enumWith d => Shape.links .enumDecl d
  | .enumMember _ attributeLists => attributeLists
  | .method _ parameters => parameters
  | .methodWith _ d => Shape.links .method d
  | .accessor _ attributeLists => attributeLists
  | .propertyWith _ d => Shape.links .property d
  | .globalStatement statement => [statement]
  | .composite _ inner => inner
  | .localFunction statements => statements
  | .awaitForeach body => [body]
  | _ => []

end Call

/-- Runs calls one after another. -/
def runCalls (calls : List Call) : Drafting (List Drafted) := calls.mapM Call.run

end DeclTree.Draft
