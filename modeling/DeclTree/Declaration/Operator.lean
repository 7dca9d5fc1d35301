import DeclTree.Syntax.Kind
/-!
The metadata names of user-defined operators and conversions.
-/
namespace DeclTree.Operator

/-- The name of a checked operator. Operators without a checked form have none. -/
def checkedName? (token : SyntaxKind) (isBinary : Bool) : Option String :=
  match token with
  | .plusToken => if isBinary then some "op_CheckedAddition" else none
  | .minusToken => some (if isBinary then "op_CheckedSubtraction" else "op_CheckedUnaryNegation")
  | .asteriskToken => some "op_CheckedMultiply"
  | .slashToken => some "op_CheckedDivision"
  | .plusPlusToken => some "op_CheckedIncrement"
  | .minusMinusToken => some "op_CheckedDecrement"
  | _ => none

/-- The name of an operator that is not checked. Plus and minus are binary with two parameters and
unary otherwise; a token that is no operator counts as unary plus. -/
def plainName (token : SyntaxKind) (isBinary : Bool) : String :=
  match token with
  | .plusToken => if isBinary then "op_Addition" else "op_UnaryPlus"
  | .minusToken => if isBinary then "op_Subtraction" else "op_UnaryNegation"
  | .exclamationToken => "op_LogicalNot"
  | .tildeToken => "op_OnesComplement"
  | .plusPlusToken => "op_Increment"
  | .minusMinusToken => "op_Decrement"
  | .trueKeyword => "op_True"
  | .falseKeyword => "op_False"
  | .asteriskToken => "op_Multiply"
  | .slashToken => "op_Division"
  | .percentToken => "op_Modulus"
  | .ampersandToken => "op_BitwiseAnd"
  | .barToken => "op_BitwiseOr"
  | .caretToken => "op_ExclusiveOr"
  | .lessThanLessThanToken => "op_LeftShift"
  | .greaterThanGreaterThanToken => "op_RightShift"
  | .greaterThanGreaterThanGreaterThanToken => "op_UnsignedRightShift"
  | .equalsEqualsToken => "op_Equality"
  | .exclamationEqualsToken => "op_Inequality"
  | .lessThanToken => "op_LessThan"
  | .greaterThanToken => "op_GreaterThan"
  | .lessThanEqualsToken => "op_LessThanOrEqual"
  | .greaterThanEqualsToken => "op_GreaterThanOrEqual"
  | _ => "op_UnaryPlus"

/-- The name of an operator. A checked one without a checked form has its plain name. -/
def name (token : SyntaxKind) (parameterCount : Nat) (isChecked : Bool) : String :=
  let isBinary := parameterCount == 2
  let checked? := if isChecked then checkedName? token isBinary else none
  checked?.getD (plainName token isBinary)

/-- The name of a conversion. Every keyword but `implicit` counts as `explicit`. -/
def conversionName (keyword : SyntaxKind) (isChecked : Bool) : String :=
  match keyword, isChecked with
  | .implicitKeyword, _ => "op_Implicit"
  | _, true => "op_CheckedExplicit"
  | _, false => "op_Explicit"

end DeclTree.Operator
