import DeclTree.Syntax.Kind
/-!
The names of the kinds, as stored trees and messages spell them. Distinct kinds have distinct names.
-/
namespace DeclTree.SyntaxKind

def name : SyntaxKind → String
  | .identifierToken => "IdentifierToken"
  | .plusToken => "PlusToken"
  | .minusToken => "MinusToken"
  | .asteriskToken => "AsteriskToken"
  | .slashToken => "SlashToken"
  | .percentToken => "PercentToken"
  | .ampersandToken => "AmpersandToken"
  | .barToken => "BarToken"
  | .caretToken => "CaretToken"
  | .exclamationToken => "ExclamationToken"
  | .tildeToken => "TildeToken"
  | .plusPlusToken => "PlusPlusToken"
  | .minusMinusToken => "MinusMinusToken"
  | .lessThanToken => "LessThanToken"
  | .greaterThanToken => "GreaterThanToken"
  | .lessThanEqualsToken => "LessThanEqualsToken"
  | .greaterThanEqualsToken => "GreaterThanEqualsToken"
  | .equalsEqualsToken => "EqualsEqualsToken"
  | .exclamationEqualsToken => "ExclamationEqualsToken"
  | .lessThanLessThanToken => "LessThanLessThanToken"
  | .greaterThanGreaterThanToken => "GreaterThanGreaterThanToken"
  | .greaterThanGreaterThanGreaterThanToken => "GreaterThanGreaterThanGreaterThanToken"
  | .abstractKeyword => "AbstractKeyword"
  | .asyncKeyword => "AsyncKeyword"
  | .checkedKeyword => "CheckedKeyword"
  | .constKeyword => "ConstKeyword"
  | .explicitKeyword => "ExplicitKeyword"
  | .externKeyword => "ExternKeyword"
  | .falseKeyword => "FalseKeyword"
  | .fileKeyword => "FileKeyword"
  | .fixedKeyword => "FixedKeyword"
  | .globalKeyword => "GlobalKeyword"
  | .implicitKeyword => "ImplicitKeyword"
  | .inKeyword => "InKeyword"
  | .internalKeyword => "InternalKeyword"
  | .newKeyword => "NewKeyword"
  | .outKeyword => "OutKeyword"
  | .overrideKeyword => "OverrideKeyword"
  | .paramsKeyword => "ParamsKeyword"
  | .partialKeyword => "PartialKeyword"
  | .privateKeyword => "PrivateKeyword"
  | .protectedKeyword => "ProtectedKeyword"
  | .publicKeyword => "PublicKeyword"
  | .readOnlyKeyword => "ReadOnlyKeyword"
  | .refKeyword => "RefKeyword"
  | .requiredKeyword => "RequiredKeyword"
  | .scopedKeyword => "ScopedKeyword"
  | .sealedKeyword => "SealedKeyword"
  | .staticKeyword => "StaticKeyword"
  | .thisKeyword => "ThisKeyword"
  | .trueKeyword => "TrueKeyword"
  | .unsafeKeyword => "UnsafeKeyword"
  | .virtualKeyword => "VirtualKeyword"
  | .volatileKeyword => "VolatileKeyword"
  | .getKeyword => "GetKeyword"
  | .setKeyword => "SetKeyword"
  | .initKeyword => "InitKeyword"
  | .addKeyword => "AddKeyword"
  | .removeKeyword => "RemoveKeyword"
  | .identifierName => "IdentifierName"
  | .genericName => "GenericName"
  | .qualifiedName => "QualifiedName"
  | .aliasQualifiedName => "AliasQualifiedName"
  | .predefinedType => "PredefinedType"
  | .compilationUnit => "CompilationUnit"
  | .externAliasDirective => "ExternAliasDirective"
  | .usingDirective => "UsingDirective"
  | .referenceDirectiveTrivia => "ReferenceDirectiveTrivia"
  | .attributeList => "AttributeList"
  | .attributeEntry => "Attribute"
  | .namespaceDeclaration => "NamespaceDeclaration"
  | .fileScopedNamespaceDeclaration => "FileScopedNamespaceDeclaration"
  | .classDeclaration => "ClassDeclaration"
  | .structDeclaration => "StructDeclaration"
  | .interfaceDeclaration => "InterfaceDeclaration"
  | .recordDeclaration => "RecordDeclaration"
  | .recordStructDeclaration => "RecordStructDeclaration"
  | .enumDeclaration => "EnumDeclaration"
  | .delegateDeclaration => "DelegateDeclaration"
  | .enumMemberDeclaration => "EnumMemberDeclaration"
  | .fieldDeclaration => "FieldDeclaration"
  | .eventFieldDeclaration => "EventFieldDeclaration"
  | .methodDeclaration => "MethodDeclaration"
  | .operatorDeclaration => "OperatorDeclaration"
  | .conversionOperatorDeclaration => "ConversionOperatorDeclaration"
  | .constructorDeclaration => "ConstructorDeclaration"
  | .destructorDeclaration => "DestructorDeclaration"
  | .propertyDeclaration => "PropertyDeclaration"
  | .eventDeclaration => "EventDeclaration"
  | .indexerDeclaration => "IndexerDeclaration"
  | .globalStatement => "GlobalStatement"
  | .incompleteMember => "IncompleteMember"
  | .variableDeclarator => "VariableDeclarator"
  | .parameter => "Parameter"
  | .typeParameter => "TypeParameter"
  | .typeParameterConstraintClause => "TypeParameterConstraintClause"
  | .accessorDeclaration => "AccessorDeclaration"
  | .simpleBaseType => "SimpleBaseType"
  | .block => "Block"
  | .emptyStatement => "EmptyStatement"
  | .expressionStatement => "ExpressionStatement"
  | .localDeclarationStatement => "LocalDeclarationStatement"
  | .localFunctionStatement => "LocalFunctionStatement"
  | .returnStatement => "ReturnStatement"
  | .yieldReturnStatement => "YieldReturnStatement"
  | .yieldBreakStatement => "YieldBreakStatement"
  | .ifStatement => "IfStatement"
  | .whileStatement => "WhileStatement"
  | .doStatement => "DoStatement"
  | .forStatement => "ForStatement"
  | .forEachStatement => "ForEachStatement"
  | .usingStatement => "UsingStatement"
  | .tryStatement => "TryStatement"
  | .catchClause => "CatchClause"
  | .finallyClause => "FinallyClause"
  | .switchStatement => "SwitchStatement"
  | .switchSection => "SwitchSection"
  | .throwStatement => "ThrowStatement"
  | .breakStatement => "BreakStatement"
  | .continueStatement => "ContinueStatement"
  | .labeledStatement => "LabeledStatement"
  | .lockStatement => "LockStatement"
  | .awaitExpression => "AwaitExpression"
  | .invocationExpression => "InvocationExpression"
  | .argumentList => "ArgumentList"
  | .argument => "Argument"
  | .simpleMemberAccessExpression => "SimpleMemberAccessExpression"
  | .objectCreationExpression => "ObjectCreationExpression"
  | .assignmentExpression => "AssignmentExpression"
  | .binaryExpression => "BinaryExpression"
  | .parenthesizedExpression => "ParenthesizedExpression"
  | .conditionalExpression => "ConditionalExpression"
  | .literalExpression => "LiteralExpression"
  | .simpleLambdaExpression => "SimpleLambdaExpression"
  | .parenthesizedLambdaExpression => "ParenthesizedLambdaExpression"
  | .anonymousMethodExpression => "AnonymousMethodExpression"

def ofName? (s : String) : Option SyntaxKind := all.find? (·.name == s)

private theorem ofName?_name_of_mem : ∀ k ∈ all, ofName? k.name = some k := by decide +kernel

theorem ofName?_name (k : SyntaxKind) : ofName? k.name = some k := ofName?_name_of_mem k (mem_all k)

end DeclTree.SyntaxKind
