import DeclTree.Syntax.Arena
import DeclTree.Syntax.Kind.Token
import DeclTree.Text.Split
/-!
Drafts: syntax trees that are composed without a source text. A cursor moves over an imagined text,
so that each node gets a range that covers its children and stops where no other node stops.
-/
namespace DeclTree

structure Draft where
  arena : Arena := {}
  cursor : UInt32 := 0

namespace Draft

instance : Inhabited Draft := ⟨{}⟩

/-- A step in the composition of a tree. -/
abbrev Drafting := StateM Draft

open Syntax

/-- The range of a leaf of a given width. A leaf is at least one wide, and a gap follows it. -/
def leafSpan (width : Nat) : Drafting Span := do
  let draft ← get
  let width := max (UInt32.ofNat width) 1
  set { draft with cursor := draft.cursor + width + 1 }
  return ⟨draft.cursor, draft.cursor + width⟩

/-- Where the first of the children starts; the cursor's place if there is no child. -/
def firstStart (draft : Draft) (children : NodeList) : UInt32 :=
  match children.filterMap draft.arena.get? with
  | [] => draft.cursor
  | h :: hs => hs.foldl (fun start h => min start h.span.start) h.span.start

/-- The range from the first of the children up to the cursor, which moves on by one. -/
def coverSpan (children : NodeList) : Drafting Span := do
  let draft ← get
  let stop := draft.cursor + 1
  set { draft with cursor := stop }
  return ⟨draft.firstStart children, stop⟩

/-- Adds a node that covers all its links. -/
def node (s : Shape) (kind : SyntaxKind) (d : s.Data) : Drafting NodeIndex := do
  let span ← coverSpan (s.links d)
  modifyGet fun draft =>
    let (index, arena) := draft.arena.add s kind span d
    (index, { draft with arena })

/-- Adds a leaf with a payload. -/
def leaf (s : Shape) (kind : SyntaxKind) (width : Nat) (d : s.Data) : Drafting NodeIndex := do
  let span ← leafSpan width
  modifyGet fun draft =>
    let (index, arena) := draft.arena.add s kind span d
    (index, { draft with arena })

/-- A token is as wide as its spelling. -/
def token (kind : SyntaxKind) : Drafting NodeIndex := do
  let span ← leafSpan ((kind.tokenText?.map String.utf8ByteSize).getD 1)
  modifyGet fun draft =>
    let (index, arena) := draft.arena.addToken kind span
    (index, { draft with arena })

def setFlags (i : NodeIndex) (flags : NodeFlags) : Drafting Unit :=
  modify fun draft => { draft with arena := draft.arena.addFlags i flags }

/-! ### Tokens and names -/

/-- A token that is only there under a condition. -/
def tokenIf (present : Bool) (kind : SyntaxKind) : Drafting NodeIndex :=
  if present then token kind else return .missing

def modifiers (kinds : List SyntaxKind) : Drafting NodeList := kinds.mapM token

def identifier (text : String) : Drafting NodeIndex :=
  leaf .identifier .identifierToken text.utf8ByteSize (⟨text⟩ : Identifier)

def identifierName (text : String) : Drafting NodeIndex :=
  leaf .identifier .identifierName text.utf8ByteSize (⟨text⟩ : Identifier)

def predefinedType (text : String) : Drafting NodeIndex :=
  leaf .identifier .predefinedType text.utf8ByteSize (⟨text⟩ : Identifier)

def qualifiedName (left right : NodeIndex) : Drafting NodeIndex :=
  node .qualifiedName .qualifiedName (⟨left, right⟩ : QualifiedName)

/-- Puts further segments to the right of a name. -/
def qualify (name : NodeIndex) : List String → Drafting NodeIndex
  | [] => return name
  | segment :: rest => do
    let right ← identifierName segment
    qualify (← qualifiedName name right) rest

/-- The name with the segments of a dotted text; `A.B.C` is nested to the left. -/
def name (dotted : String) : Drafting NodeIndex :=
  match Text.segments dotted with
  | [] => identifierName ""
  | first :: rest => do qualify (← identifierName first) rest

def aliasQualifiedName (aliasText name : String) : Drafting NodeIndex := do
  let left ← identifierName aliasText
  let right ← identifierName name
  node .qualifiedName .aliasQualifiedName (⟨left, right⟩ : QualifiedName)

def genericName (text : String) (arguments : List String) : Drafting NodeIndex := do
  let identifier ← identifier text
  let typeArguments ← arguments.mapM identifierName
  node .genericName .genericName (⟨identifier, typeArguments⟩ : GenericName)

/-! ### Compilation units, directives and attributes -/

def compilationUnit (d : CompilationUnit) : Drafting NodeIndex :=
  node .compilationUnit .compilationUnit d

def externAlias (aliasText : String) : Drafting NodeIndex := do
  let identifier ← identifier aliasText
  node .externAlias .externAliasDirective (⟨identifier⟩ : ExternAlias)

def usingDirective (isGlobal isStatic : Bool) (aliasText : Option String) (target : String) :
    Drafting NodeIndex := do
  let globalKeyword ← tokenIf isGlobal .globalKeyword
  let staticKeyword ← tokenIf isStatic .staticKeyword
  let aliasName ← match aliasText with
    | some text => identifier text
    | none => pure .missing
  let name ← name target
  node .usingDirective .usingDirective
    (⟨globalKeyword, staticKeyword, aliasName, name⟩ : UsingDirective)

/-- The directive `#r "file"`, whose range has room for the five other characters. -/
def referenceDirective (file : String) : Drafting NodeIndex :=
  leaf .referenceDirective .referenceDirectiveTrivia (file.utf8ByteSize + 5)
    (⟨file⟩ : ReferenceDirective)

def attributeEntry (attributeName : String) : Drafting NodeIndex := do
  let name ← name attributeName
  node .attributeEntry .attributeEntry (⟨name, []⟩ : AttributeEntry)

def attributeList (target : Option String) (names : List String) : Drafting NodeIndex := do
  let attributes ← names.mapM attributeEntry
  node .attributeList .attributeList (⟨target, attributes⟩ : AttributeList)

/-! ### Namespaces and types -/

def namespaceWith (kind : SyntaxKind) (d : Namespace) : Drafting NodeIndex :=
  node .namespaceDecl kind d

def namespaceOf (kind : SyntaxKind) (dotted : String) (members : NodeList) :
    Drafting NodeIndex := do
  let name ← name dotted
  namespaceWith kind { name, members }

def typeWith (kind : SyntaxKind) (d : TypeDecl) : Drafting NodeIndex := node .typeDecl kind d

def typeOf (kind : SyntaxKind) (typeName : String) (members : NodeList) :
    Drafting NodeIndex := do
  let identifier ← identifier typeName
  typeWith kind { identifier, members }

def typeParameter (parameterName : String) : Drafting NodeIndex := do
  let identifier ← identifier parameterName
  node .typeParameter .typeParameter (⟨[], identifier⟩ : TypeParameter)

def typeParameters (names : List String) : Drafting NodeList := names.mapM typeParameter

def baseList (names : List String) : Drafting NodeList := names.mapM name

def constraintClause (parameter constraint : String) : Drafting NodeIndex := do
  let subject ← identifierName parameter
  let bound ← name constraint
  node .constraintClause .typeParameterConstraintClause (⟨subject, [bound]⟩ : ConstraintClause)

def delegateWith (d : Delegate) : Drafting NodeIndex := node .delegate .delegateDeclaration d

def delegate (delegateName : String) : Drafting NodeIndex := do
  let returnType ← predefinedType "void"
  let identifier ← identifier delegateName
  delegateWith { returnType, identifier }

def enumWith (d : EnumDecl) : Drafting NodeIndex := node .enumDecl .enumDeclaration d

def enumMember (memberName : String) (attributeLists : NodeList) : Drafting NodeIndex := do
  let identifier ← identifier memberName
  node .enumMember .enumMemberDeclaration ({ attributeLists, identifier } : EnumMember)

def enumOf (enumName : String) (memberNames : List String) : Drafting NodeIndex := do
  let identifier ← identifier enumName
  let members ← memberNames.mapM (enumMember · [])
  enumWith { identifier, members }

/-! ### Members -/

def declarator (variableName : String) : Drafting NodeIndex := do
  let identifier ← identifier variableName
  node .declarator .variableDeclarator ({ identifier } : Declarator)

def fieldWith (kind : SyntaxKind) (modifierKinds : List SyntaxKind) (names : List String) :
    Drafting NodeIndex := do
  let modifiers ← modifiers modifierKinds
  let typeNode ← predefinedType "int"
  let declarators ← names.mapM declarator
  node .field kind ({ modifiers, typeNode, declarators } : Field)

def parameter (modifierKinds : List SyntaxKind) (parameterName : String) :
    Drafting NodeIndex := do
  let modifiers ← modifiers modifierKinds
  let typeNode ← predefinedType "int"
  let identifier ← identifier parameterName
  node .parameter .parameter ({ modifiers, typeNode, identifier } : Parameter)

/-- A statement or expression with its children. -/
def composite (kind : SyntaxKind) (children : NodeList) : Drafting NodeIndex :=
  node .composite kind (⟨children⟩ : Composite)

def methodWith (kind : SyntaxKind) (d : Method) : Drafting NodeIndex := node .method kind d

def method (methodName : String) (parameters : NodeList) : Drafting NodeIndex := do
  let returnType ← predefinedType "void"
  let identifier ← identifier methodName
  let body ← composite .block []
  methodWith .methodDeclaration { returnType, identifier, parameters, body }

def explicitInterfaceMethod (interfaceName methodName : String) : Drafting NodeIndex := do
  let returnType ← predefinedType "void"
  let explicitInterface ← name interfaceName
  let identifier ← identifier methodName
  methodWith .methodDeclaration { returnType, explicitInterface, identifier }

def constructor (typeName : String) (isStatic : Bool) : Drafting NodeIndex := do
  let modifiers ← modifiers (if isStatic then [.staticKeyword] else [])
  let identifier ← identifier typeName
  methodWith .constructorDeclaration { modifiers, identifier }

def destructor (typeName : String) : Drafting NodeIndex := do
  let identifier ← identifier typeName
  methodWith .destructorDeclaration { identifier }

/-- The operator with the given number of parameters, which are called `p0`, `p1`, … -/
def operator (operatorKind : SyntaxKind) (parameterCount : Nat) (isChecked : Bool) :
    Drafting NodeIndex := do
  let modifiers ← modifiers [.publicKeyword, .staticKeyword]
  let returnType ← identifierName "T"
  let checkedKeyword ← tokenIf isChecked .checkedKeyword
  let operatorToken ← token operatorKind
  let parameters ← (List.range parameterCount).mapM fun n => parameter [] s!"p{n}"
  methodWith .operatorDeclaration
    { modifiers, returnType, checkedKeyword, operatorToken, parameters }

/-- The conversion of a `S s` to a `T`. -/
def conversion (keyword : SyntaxKind) (isChecked : Bool) : Drafting NodeIndex := do
  let modifiers ← modifiers [.publicKeyword, .staticKeyword]
  let operatorToken ← token keyword
  let checkedKeyword ← tokenIf isChecked .checkedKeyword
  let returnType ← identifierName "T"
  let source ← parameter [] "s"
  methodWith .conversionOperatorDeclaration
    { modifiers, returnType, operatorToken, checkedKeyword, parameters := [source] }

def accessor (keywordKind : SyntaxKind) (attributeLists : NodeList) : Drafting NodeIndex := do
  let keyword ← token keywordKind
  node .accessor .accessorDeclaration ({ attributeLists, keyword } : Accessor)

def propertyWith (kind : SyntaxKind) (d : Property) : Drafting NodeIndex := node .property kind d

def property (propertyName : String) : Drafting NodeIndex := do
  let getter ← accessor .getKeyword []
  let setter ← accessor .setKeyword []
  let typeNode ← predefinedType "int"
  let identifier ← identifier propertyName
  propertyWith .propertyDeclaration { typeNode, identifier, accessors := some [getter, setter] }

def indexer : Drafting NodeIndex := do
  let getter ← accessor .getKeyword []
  let typeNode ← predefinedType "int"
  let index ← parameter [] "i"
  propertyWith .indexerDeclaration
    { typeNode, parameters := [index], accessors := some [getter] }

def event (eventName : String) : Drafting NodeIndex := do
  let adder ← accessor .addKeyword []
  let remover ← accessor .removeKeyword []
  let typeNode ← identifierName "Action"
  let identifier ← identifier eventName
  propertyWith .eventDeclaration { typeNode, identifier, accessors := some [adder, remover] }

def incompleteMember : Drafting NodeIndex := do
  let typeNode ← predefinedType "int"
  node .incompleteMember .incompleteMember ({ typeNode } : IncompleteMember)

/-! ### Statements and expressions -/

def globalStatement (statement : NodeIndex) : Drafting NodeIndex :=
  node .globalStatement .globalStatement ({ statement } : GlobalStatement)

def invocation (callee : String) : Drafting NodeIndex := do
  let callee ← name callee
  let arguments ← composite .argumentList []
  composite .invocationExpression [callee, arguments]

def callStatement (callee : String) : Drafting NodeIndex := do
  composite .expressionStatement [← invocation callee]

def localFunction (statements : NodeList) : Drafting NodeIndex := do
  composite .localFunctionStatement [← composite .block statements]

def awaitForeach (body : NodeIndex) : Drafting NodeIndex := do
  let collection ← identifierName "items"
  let statement ← composite .forEachStatement [collection, body]
  setFlags statement NodeFlags.awaitKeyword
  return statement

def awaitUsing : Drafting NodeIndex := do
  let value ← invocation "Open"
  let statement ← composite .localDeclarationStatement [value]
  setFlags statement NodeFlags.awaitKeyword
  return statement

end Draft

end DeclTree
