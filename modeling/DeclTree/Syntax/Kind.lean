/-!
The kinds of syntax node and token. The order of the kinds is part of the type: it gives each kind
its number.
-/
namespace DeclTree

/-- What a node of a syntax tree is. -/
inductive SyntaxKind
  -- tokens
  | identifierToken | plusToken | minusToken | asteriskToken | slashToken | percentToken
  | ampersandToken | barToken | caretToken | exclamationToken | tildeToken | plusPlusToken
  | minusMinusToken | lessThanToken | greaterThanToken | lessThanEqualsToken
  | greaterThanEqualsToken | equalsEqualsToken | exclamationEqualsToken | lessThanLessThanToken
  | greaterThanGreaterThanToken | greaterThanGreaterThanGreaterThanToken
  -- keywords
  | abstractKeyword | asyncKeyword | checkedKeyword | constKeyword | explicitKeyword
  | externKeyword | falseKeyword | fileKeyword | fixedKeyword | globalKeyword | implicitKeyword
  | inKeyword | internalKeyword | newKeyword | outKeyword | overrideKeyword | paramsKeyword
  | partialKeyword | privateKeyword | protectedKeyword | publicKeyword | readOnlyKeyword
  | refKeyword | requiredKeyword | scopedKeyword | sealedKeyword | staticKeyword | thisKeyword
  | trueKeyword | unsafeKeyword | virtualKeyword | volatileKeyword | getKeyword | setKeyword
  | initKeyword | addKeyword | removeKeyword
  -- names
  | identifierName | genericName | qualifiedName | aliasQualifiedName | predefinedType
  -- compilation unit and directives
  | compilationUnit | externAliasDirective | usingDirective | referenceDirectiveTrivia
  | attributeList | attributeEntry
  -- namespace and type declarations
  | namespaceDeclaration | fileScopedNamespaceDeclaration | classDeclaration | structDeclaration
  | interfaceDeclaration | recordDeclaration | recordStructDeclaration | enumDeclaration
  | delegateDeclaration
  -- members
  | enumMemberDeclaration | fieldDeclaration | eventFieldDeclaration | methodDeclaration
  | operatorDeclaration | conversionOperatorDeclaration | constructorDeclaration
  | destructorDeclaration | propertyDeclaration | eventDeclaration | indexerDeclaration
  | globalStatement | incompleteMember
  -- member parts
  | variableDeclarator | parameter | typeParameter | typeParameterConstraintClause
  | accessorDeclaration | simpleBaseType
  -- statements
  | block | emptyStatement | expressionStatement | localDeclarationStatement
  | localFunctionStatement | returnStatement | yieldReturnStatement | yieldBreakStatement
  | ifStatement | whileStatement | doStatement | forStatement | forEachStatement | usingStatement
  | tryStatement | catchClause | finallyClause | switchStatement | switchSection | throwStatement
  | breakStatement | continueStatement | labeledStatement | lockStatement
  -- expressions
  | awaitExpression | invocationExpression | argumentList | argument
  | simpleMemberAccessExpression | objectCreationExpression | assignmentExpression
  | binaryExpression | parenthesizedExpression | conditionalExpression | literalExpression
  | simpleLambdaExpression | parenthesizedLambdaExpression | anonymousMethodExpression
  deriving DecidableEq, Repr

namespace SyntaxKind

/-- Every kind, in order. -/
def all : List SyntaxKind := [
  identifierToken, plusToken, minusToken, asteriskToken, slashToken, percentToken,
  ampersandToken, barToken, caretToken, exclamationToken, tildeToken, plusPlusToken,
  minusMinusToken, lessThanToken, greaterThanToken, lessThanEqualsToken, greaterThanEqualsToken,
  equalsEqualsToken, exclamationEqualsToken, lessThanLessThanToken, greaterThanGreaterThanToken,
  greaterThanGreaterThanGreaterThanToken, abstractKeyword, asyncKeyword, checkedKeyword,
  constKeyword, explicitKeyword, externKeyword, falseKeyword, fileKeyword, fixedKeyword,
  globalKeyword, implicitKeyword, inKeyword, internalKeyword, newKeyword, outKeyword,
  overrideKeyword, paramsKeyword, partialKeyword, privateKeyword, protectedKeyword,
  publicKeyword, readOnlyKeyword, refKeyword, requiredKeyword, scopedKeyword, sealedKeyword,
  staticKeyword, thisKeyword, trueKeyword, unsafeKeyword, virtualKeyword, volatileKeyword,
  getKeyword, setKeyword, initKeyword, addKeyword, removeKeyword, identifierName, genericName,
  qualifiedName, aliasQualifiedName, predefinedType, compilationUnit, externAliasDirective,
  usingDirective, referenceDirectiveTrivia, attributeList, attributeEntry, namespaceDeclaration,
  fileScopedNamespaceDeclaration, classDeclaration, structDeclaration, interfaceDeclaration,
  recordDeclaration, recordStructDeclaration, enumDeclaration, delegateDeclaration,
  enumMemberDeclaration, fieldDeclaration, eventFieldDeclaration, methodDeclaration,
  operatorDeclaration, conversionOperatorDeclaration, constructorDeclaration,
  destructorDeclaration, propertyDeclaration, eventDeclaration, indexerDeclaration,
  globalStatement, incompleteMember, variableDeclarator, parameter, typeParameter,
  typeParameterConstraintClause, accessorDeclaration, simpleBaseType, block, emptyStatement,
  expressionStatement, localDeclarationStatement, localFunctionStatement, returnStatement,
  yieldReturnStatement, yieldBreakStatement, ifStatement, whileStatement, doStatement,
  forStatement, forEachStatement, usingStatement, tryStatement, catchClause, finallyClause,
  switchStatement, switchSection, throwStatement, breakStatement, continueStatement,
  labeledStatement, lockStatement, awaitExpression, invocationExpression, argumentList, argument,
  simpleMemberAccessExpression, objectCreationExpression, assignmentExpression, binaryExpression,
  parenthesizedExpression, conditionalExpression, literalExpression, simpleLambdaExpression,
  parenthesizedLambdaExpression, anonymousMethodExpression]

/-- The place of a kind in the order, from zero. -/
def number (k : SyntaxKind) : Nat := k.ctorIdx

set_option maxRecDepth 2000 in
theorem getElem?_all_number (k : SyntaxKind) : all[k.number]? = some k := by
  cases k <;> rfl

theorem mem_all (k : SyntaxKind) : k ∈ all := List.mem_of_getElem? (getElem?_all_number k)

end SyntaxKind

end DeclTree
