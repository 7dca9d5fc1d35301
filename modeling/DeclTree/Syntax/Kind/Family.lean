import DeclTree.Syntax.Kind
/-!
Families of kinds that declarations are built by.
-/
namespace DeclTree.SyntaxKind

/-- Keywords that may stand in the modifier list of a declaration. -/
def isModifier : SyntaxKind → Bool
  | .abstractKeyword | .asyncKeyword | .constKeyword | .externKeyword | .fileKeyword
  | .fixedKeyword | .internalKeyword | .newKeyword | .overrideKeyword | .partialKeyword
  | .privateKeyword | .protectedKeyword | .publicKeyword | .readOnlyKeyword | .refKeyword
  | .requiredKeyword | .scopedKeyword | .sealedKeyword | .staticKeyword | .unsafeKeyword
  | .virtualKeyword | .volatileKeyword => true
  | _ => false

/-- Namespaces with braces, and file-scoped ones. -/
def isNamespace : SyntaxKind → Bool
  | .namespaceDeclaration | .fileScopedNamespaceDeclaration => true
  | _ => false

/-- Type declarations with a member list: classes, structs, interfaces and records. -/
def isClassLike : SyntaxKind → Bool
  | .classDeclaration | .structDeclaration | .interfaceDeclaration | .recordDeclaration
  | .recordStructDeclaration => true
  | _ => false

/-- Namespaces, types, delegates and enums: the members that are declarations of their own. -/
def isDeclaration (k : SyntaxKind) : Bool :=
  k.isNamespace || k.isClassLike || k == .enumDeclaration || k == .delegateDeclaration

/-- The kinds of member that are neither declarations nor statements. -/
def nonTypeKinds : List SyntaxKind := [
  fieldDeclaration, eventFieldDeclaration, methodDeclaration, operatorDeclaration,
  conversionOperatorDeclaration, constructorDeclaration, destructorDeclaration,
  propertyDeclaration, eventDeclaration, indexerDeclaration]

/-- Lambdas, anonymous methods and local functions, whose bodies belong to another function. -/
def isNestedFunction : SyntaxKind → Bool
  | .localFunctionStatement | .anonymousMethodExpression | .simpleLambdaExpression
  | .parenthesizedLambdaExpression => true
  | _ => false

/-- Statements and expressions, which hold nothing but their children. -/
def isComposite : SyntaxKind → Bool
  | .block | .emptyStatement | .expressionStatement | .localDeclarationStatement
  | .localFunctionStatement | .returnStatement | .yieldReturnStatement | .yieldBreakStatement
  | .ifStatement | .whileStatement | .doStatement | .forStatement | .forEachStatement
  | .usingStatement | .tryStatement | .catchClause | .finallyClause | .switchStatement
  | .switchSection | .throwStatement | .breakStatement | .continueStatement | .labeledStatement
  | .lockStatement | .awaitExpression | .invocationExpression | .argumentList | .argument
  | .simpleMemberAccessExpression | .objectCreationExpression | .assignmentExpression
  | .binaryExpression | .parenthesizedExpression | .conditionalExpression | .literalExpression
  | .simpleLambdaExpression | .parenthesizedLambdaExpression | .anonymousMethodExpression => true
  | _ => false

end DeclTree.SyntaxKind
