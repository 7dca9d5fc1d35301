import DeclTree.Declaration.Operator
/-!
The metadata names of operators as a table with one row for each operator. A token with a unary and a
binary operator has two rows, and the name of a checked operator stands in the row of the plain one.
-/
namespace DeclTree.Operator

/-- Which operator of a token is meant. -/
inductive Arity
  | unary
  | binary
  /-- The only one. -/
  | sole
  deriving DecidableEq

/-- An operator with two parameters is binary; with any other number of them it is unary. -/
def Arity.Takes : Arity → Nat → Prop
  | .unary, n => n ≠ 2
  | .binary, n => n = 2
  | .sole, _ => True

theorem Arity.takes_iff {arity : Arity} {n : Nat} :
    arity.Takes n ↔ (n = 2 → arity ≠ .unary) ∧ (n ≠ 2 → arity ≠ .binary) := by
  cases arity <;> simp [Takes]

/-- An operator, with its name and with that of its checked form if it has one. -/
structure Row where
  token : SyntaxKind
  arity : Arity
  plain : String
  checked? : Option String := none
  deriving DecidableEq

def rows : List Row := [
  { token := .plusToken, arity := .binary, plain := "op_Addition",
    checked? := some "op_CheckedAddition" },
  { token := .plusToken, arity := .unary, plain := "op_UnaryPlus" },
  { token := .minusToken, arity := .binary, plain := "op_Subtraction",
    checked? := some "op_CheckedSubtraction" },
  { token := .minusToken, arity := .unary, plain := "op_UnaryNegation",
    checked? := some "op_CheckedUnaryNegation" },
  { token := .asteriskToken, arity := .sole, plain := "op_Multiply",
    checked? := some "op_CheckedMultiply" },
  { token := .slashToken, arity := .sole, plain := "op_Division",
    checked? := some "op_CheckedDivision" },
  { token := .plusPlusToken, arity := .sole, plain := "op_Increment",
    checked? := some "op_CheckedIncrement" },
  { token := .minusMinusToken, arity := .sole, plain := "op_Decrement",
    checked? := some "op_CheckedDecrement" },
  { token := .percentToken, arity := .sole, plain := "op_Modulus" },
  { token := .exclamationToken, arity := .sole, plain := "op_LogicalNot" },
  { token := .tildeToken, arity := .sole, plain := "op_OnesComplement" },
  { token := .trueKeyword, arity := .sole, plain := "op_True" },
  { token := .falseKeyword, arity := .sole, plain := "op_False" },
  { token := .ampersandToken, arity := .sole, plain := "op_BitwiseAnd" },
  { token := .barToken, arity := .sole, plain := "op_BitwiseOr" },
  { token := .caretToken, arity := .sole, plain := "op_ExclusiveOr" },
  { token := .lessThanLessThanToken, arity := .sole, plain := "op_LeftShift" },
  { token := .greaterThanGreaterThanToken, arity := .sole, plain := "op_RightShift" },
  { token := .greaterThanGreaterThanGreaterThanToken, arity := .sole,
    plain := "op_UnsignedRightShift" },
  { token := .equalsEqualsToken, arity := .sole, plain := "op_Equality" },
  { token := .exclamationEqualsToken, arity := .sole, plain := "op_Inequality" },
  { token := .lessThanToken, arity := .sole, plain := "op_LessThan" },
  { token := .greaterThanToken, arity := .sole, plain := "op_GreaterThan" },
  { token := .lessThanEqualsToken, arity := .sole, plain := "op_LessThanOrEqual" },
  { token := .greaterThanEqualsToken, arity := .sole, plain := "op_GreaterThanOrEqual" }]

/-- The name of an operator with a token and some parameters. -/
inductive IsName (token : SyntaxKind) (parameterCount : Nat) (isChecked : Bool) : String → Prop
  | checked {row : Row} {name : String} : row ∈ rows → row.token = token →
      row.arity.Takes parameterCount → isChecked = true → row.checked? = some name →
      IsName token parameterCount isChecked name
  /-- A checked operator without a checked form has its plain name. -/
  | plain {row : Row} : row ∈ rows → row.token = token → row.arity.Takes parameterCount →
      isChecked = false ∨ row.checked? = none → IsName token parameterCount isChecked row.plain
  /-- A token of no operator counts as unary plus. -/
  | other : (∀ row ∈ rows, row.token ≠ token) →
      IsName token parameterCount isChecked "op_UnaryPlus"

/-- The name of a conversion with a keyword. Every keyword but `implicit` counts as `explicit`. -/
inductive IsConversionName (keyword : SyntaxKind) (isChecked : Bool) : String → Prop
  | implicit : keyword = .implicitKeyword → IsConversionName keyword isChecked "op_Implicit"
  | explicit : keyword ≠ .implicitKeyword → isChecked = false →
      IsConversionName keyword isChecked "op_Explicit"
  | checkedExplicit : keyword ≠ .implicitKeyword → isChecked = true →
      IsConversionName keyword isChecked "op_CheckedExplicit"

variable {token keyword : SyntaxKind} {parameterCount : Nat} {isChecked : Bool} {s : String}

theorem names_of_mem {row : Row} (hrow : row ∈ rows) (htakes : row.arity.Takes parameterCount) :
    checkedName? row.token (parameterCount == 2) = row.checked? ∧
      plainName row.token (parameterCount == 2) = row.plain := by
  have hall : ∀ row ∈ rows,
      (row.arity ≠ .unary →
        checkedName? row.token true = row.checked? ∧ plainName row.token true = row.plain) ∧
      (row.arity ≠ .binary →
        checkedName? row.token false = row.checked? ∧ plainName row.token false = row.plain) := by
    decide +kernel
  obtain ⟨hbinary, hunary⟩ := hall row hrow
  obtain ⟨hnotUnary, hnotBinary⟩ := Arity.takes_iff.1 htakes
  by_cases htwo : parameterCount = 2
  · rw [beq_iff_eq.2 htwo]
    exact hbinary (hnotUnary htwo)
  · rw [beq_eq_false_iff_ne.2 htwo]
    exact hunary (hnotBinary htwo)

theorem names_of_forall_ne (h : ∀ row ∈ rows, row.token ≠ token) (isBinary : Bool) :
    checkedName? token isBinary = none ∧ plainName token isBinary = "op_UnaryPlus" := by
  have hall : ∀ token ∈ SyntaxKind.all, (∀ row ∈ rows, row.token ≠ token) → ∀ isBinary,
      checkedName? token isBinary = none ∧ plainName token isBinary = "op_UnaryPlus" := by
    decide +kernel
  exact hall token (SyntaxKind.mem_all token) h isBinary

/-- A token of some operator has one for every number of parameters. -/
theorem exists_row_takes {row : Row} (hrow : row ∈ rows) (parameterCount : Nat) :
    ∃ other ∈ rows, other.token = row.token ∧ other.arity.Takes parameterCount := by
  have hall : ∀ row ∈ rows,
      (∃ other ∈ rows, other.token = row.token ∧ other.arity ≠ .unary) ∧
        ∃ other ∈ rows, other.token = row.token ∧ other.arity ≠ .binary := by
    decide +kernel
  obtain ⟨⟨binary, hbinary, hbinaryToken, hnotUnary⟩, unary, hunary, hunaryToken, hnotBinary⟩ :=
    hall row hrow
  by_cases htwo : parameterCount = 2
  · have htakes : binary.arity.Takes parameterCount :=
      Arity.takes_iff.2 ⟨fun _ => hnotUnary, fun hne => absurd htwo hne⟩
    exact ⟨binary, hbinary, hbinaryToken, htakes⟩
  · have htakes : unary.arity.Takes parameterCount :=
      Arity.takes_iff.2 ⟨fun heq => absurd heq htwo, fun _ => hnotBinary⟩
    exact ⟨unary, hunary, hunaryToken, htakes⟩

theorem IsName.name_eq (h : IsName token parameterCount isChecked s) :
    name token parameterCount isChecked = s := by
  cases h with
  | checked hrow htoken htakes hchecked hname =>
    obtain ⟨hform, -⟩ := names_of_mem hrow htakes
    simp [name, ← htoken, hform, hchecked, hname]
  | plain hrow htoken htakes hplain =>
    obtain ⟨hform, hname⟩ := names_of_mem hrow htakes
    obtain hunchecked | hnone := hplain
    · simp [name, ← htoken, hname, hunchecked]
    · simp [name, ← htoken, hform, hname, hnone]
  | other hnone =>
    obtain ⟨hform, hname⟩ := names_of_forall_ne hnone (parameterCount == 2)
    simp [name, hform, hname]

theorem exists_isName (token : SyntaxKind) (parameterCount : Nat) (isChecked : Bool) :
    ∃ s, IsName token parameterCount isChecked s := by
  by_cases hoperator : ∃ row ∈ rows, row.token = token
  · obtain ⟨row, hrow, rfl⟩ := hoperator
    obtain ⟨own, hown, htoken, htakes⟩ := exists_row_takes hrow parameterCount
    cases hchecked : isChecked with
    | false => exact ⟨_, .plain hown htoken htakes (.inl rfl)⟩
    | true =>
      cases hform : own.checked? with
      | none => exact ⟨_, .plain hown htoken htakes (.inr hform)⟩
      | some s => exact ⟨s, .checked hown htoken htakes rfl hform⟩
  · exact ⟨_, .other fun row hrow htoken => hoperator ⟨row, hrow, htoken⟩⟩

/-- The name of an operator is that of its row. -/
theorem name_eq_iff : name token parameterCount isChecked = s ↔
    IsName token parameterCount isChecked s := by
  refine ⟨?_, IsName.name_eq⟩
  rintro rfl
  obtain ⟨s, hs⟩ := exists_isName token parameterCount isChecked
  exact hs.name_eq ▸ hs

theorem conversionName_eq_iff : conversionName keyword isChecked = s ↔
    IsConversionName keyword isChecked s := by
  constructor
  · rintro rfl
    unfold conversionName
    split
    · exact .implicit rfl
    · exact .checkedExplicit (by assumption) rfl
    · exact .explicit (by assumption) rfl
  · intro h
    cases h with
    | implicit hkeyword => simp [conversionName, hkeyword]
    | explicit _ hchecked => simp [conversionName, hchecked]
    | checkedExplicit _ hchecked => simp [conversionName, hchecked]

end DeclTree.Operator
