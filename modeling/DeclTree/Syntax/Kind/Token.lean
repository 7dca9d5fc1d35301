import DeclTree.Syntax.Kind
/-!
The source text of keyword and punctuation tokens.
-/
namespace DeclTree.SyntaxKind

/-- How a keyword is spelled; other kinds have no spelling of their own. -/
def keywordText? : SyntaxKind → Option String
  | .abstractKeyword => some "abstract"
  | .asyncKeyword => some "async"
  | .checkedKeyword => some "checked"
  | .constKeyword => some "const"
  | .explicitKeyword => some "explicit"
  | .externKeyword => some "extern"
  | .falseKeyword => some "false"
  | .fileKeyword => some "file"
  | .fixedKeyword => some "fixed"
  | .globalKeyword => some "global"
  | .implicitKeyword => some "implicit"
  | .inKeyword => some "in"
  | .internalKeyword => some "internal"
  | .newKeyword => some "new"
  | .outKeyword => some "out"
  | .overrideKeyword => some "override"
  | .paramsKeyword => some "params"
  | .partialKeyword => some "partial"
  | .privateKeyword => some "private"
  | .protectedKeyword => some "protected"
  | .publicKeyword => some "public"
  | .readOnlyKeyword => some "readonly"
  | .refKeyword => some "ref"
  | .requiredKeyword => some "required"
  | .scopedKeyword => some "scoped"
  | .sealedKeyword => some "sealed"
  | .staticKeyword => some "static"
  | .thisKeyword => some "this"
  | .trueKeyword => some "true"
  | .unsafeKeyword => some "unsafe"
  | .virtualKeyword => some "virtual"
  | .volatileKeyword => some "volatile"
  | .getKeyword => some "get"
  | .setKeyword => some "set"
  | .initKeyword => some "init"
  | .addKeyword => some "add"
  | .removeKeyword => some "remove"
  | _ => none

/-- How a punctuation token is spelled. -/
def punctuationText? : SyntaxKind → Option String
  | .plusToken => some "+"
  | .minusToken => some "-"
  | .asteriskToken => some "*"
  | .slashToken => some "/"
  | .percentToken => some "%"
  | .ampersandToken => some "&"
  | .barToken => some "|"
  | .caretToken => some "^"
  | .exclamationToken => some "!"
  | .tildeToken => some "~"
  | .plusPlusToken => some "++"
  | .minusMinusToken => some "--"
  | .lessThanToken => some "<"
  | .greaterThanToken => some ">"
  | .lessThanEqualsToken => some "<="
  | .greaterThanEqualsToken => some ">="
  | .equalsEqualsToken => some "=="
  | .exclamationEqualsToken => some "!="
  | .lessThanLessThanToken => some "<<"
  | .greaterThanGreaterThanToken => some ">>"
  | .greaterThanGreaterThanGreaterThanToken => some ">>>"
  | _ => none

/-- The spelling of a token that has a fixed one. -/
def tokenText? (k : SyntaxKind) : Option String := k.keywordText? <|> k.punctuationText?

end DeclTree.SyntaxKind
