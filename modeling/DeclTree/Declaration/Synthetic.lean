import DeclTree.Declaration.Basic
import DeclTree.Declaration.Members
import DeclTree.Declaration.Container
import DeclTree.Text.Split
/-!
Types that no source text declares: the program made of top-level statements, the class that holds
members written outside types, and the class of a script.
-/
namespace DeclTree

namespace TypeHeader

/-- The name of the class that holds top-level statements. -/
def simpleProgramName : String := "Program"

/-- The name of the class that holds members written outside types. No source can spell it. -/
def implicitClassName : String := "<invalid-global-code>"

end TypeHeader

/-- What is set from outside the syntax tree. -/
structure DeclarationOptions where
  /-- The name of a script's class; dots separate it from namespaces around it. -/
  scriptClassName : String := "Script"
  /-- Whether scripts are submissions of an interactive session. -/
  isSubmission : Bool := false
  deriving DecidableEq, Repr, Inhabited

/-- What is known of the top-level statements of a file. -/
structure StatementSummary where
  /-- Some statement is more than a semicolon. -/
  hasNonEmpty : Bool := false
  facts : TypeFacts := ∅

namespace SyntaxTree

variable (t : SyntaxTree)

/-- Adds what one more statement tells. What is known already is not looked for again. -/
def noteStatement (known : StatementSummary) (statement : NodeIndex) : StatementSummary where
  hasNonEmpty := known.hasNonEmpty || !t.arena.isEmptyStatement statement
  facts :=
    Arena.noteFact .hasReturnWithExpression t.arena.hasValueReturn statement
      (Arena.noteFact .isIterator t.arena.hasYield statement
        (Arena.noteFact .hasAwaitExpressions t.arena.hasAwait statement known.facts))

/-- Adds what one more global statement tells; one without its payload is passed over. -/
def noteGlobal (known : StatementSummary) (i : NodeIndex) : StatementSummary :=
  match t.arena.payload? .globalStatement i with
  | some (d : Syntax.GlobalStatement) => t.noteStatement known d.statement
  | none => known

def statementSummary (globals : NodeList) : StatementSummary := globals.foldl t.noteGlobal {}

/-- The program made of the global statements of a compilation unit, the first of which is given. It
is named at that one. -/
def simpleProgram (unit first : NodeIndex) (globals : NodeList) : TypeDeclaration :=
  let summary := t.statementSummary globals
  let place := t.location first
  .mk { reference := t.reference unit
        nameLocation := place
        diagnostics := if summary.hasNonEmpty then [] else [⟨Code.emptyProgram, place, []⟩]
        kind := .simpleProgram
        name := TypeHeader.simpleProgramName
        modifiers := .single .partialMod
        facts := .single .isSimpleProgram ∪ summary.facts } []

/-- The statements within some global statements; one without its payload is passed over. -/
def statementsOf (globals : NodeList) : NodeList :=
  globals.filterMap fun i =>
    (t.arena.payload? .globalStatement i).map fun (d : Syntax.GlobalStatement) => d.statement

/-- The facts of a top-level program: what holds of any statement holds of the program. -/
def programFacts (statements : NodeList) : TypeFacts :=
  .single .isSimpleProgram ∪
    .when (statements.any t.arena.hasAwait) .hasAwaitExpressions ∪
    .when (statements.any t.arena.hasYield) .isIterator ∪
    .when (statements.any t.arena.hasValueReturn) .hasReturnWithExpression

theorem foldl_noteGlobal (globals : NodeList) (known : StatementSummary) :
    globals.foldl t.noteGlobal known = (t.statementsOf globals).foldl t.noteStatement known := by
  induction globals generalizing known with
  | nil => rfl
  | cons i globals ih =>
    rw [List.foldl_cons, ih, noteGlobal, statementsOf, statementsOf, List.filterMap_cons]
    cases t.arena.payload? .globalStatement i <;> rfl

/-- No statement takes anything away from what another one tells. -/
theorem foldl_noteStatement (statements : NodeList) (known : StatementSummary) :
    statements.foldl t.noteStatement known =
      ⟨known.hasNonEmpty || !statements.all t.arena.isEmptyStatement,
        known.facts ∪ .when (statements.any t.arena.hasAwait) .hasAwaitExpressions ∪
          .when (statements.any t.arena.hasYield) .isIterator ∪
          .when (statements.any t.arena.hasValueReturn) .hasReturnWithExpression⟩ := by
  induction statements generalizing known with
  | nil => simp [FlagSet.when]
  | cons statement statements ih =>
    rw [List.foldl_cons, ih]
    simp only [noteStatement, Arena.noteFact_eq, List.all_cons, List.any_cons, FlagSet.when_or,
      Bool.not_and, Bool.or_assoc, FlagSet.union_assoc, FlagSet.union_left_comm]

theorem simpleProgram_eq_any (unit first : NodeIndex) (globals : NodeList) :
    t.simpleProgram unit first globals =
      .mk { reference := t.reference unit
            nameLocation := t.location first
            diagnostics :=
              if (t.statementsOf globals).all t.arena.isEmptyStatement then
                [⟨Code.emptyProgram, t.location first, []⟩]
              else []
            kind := .simpleProgram
            name := TypeHeader.simpleProgramName
            modifiers := .single .partialMod
            facts := t.programFacts (t.statementsOf globals) } [] := by
  rw [simpleProgram, statementSummary, foldl_noteGlobal, foldl_noteStatement, programFacts]
  cases (t.statementsOf globals).all t.arena.isEmptyStatement <;>
    simp [FlagSet.union_assoc]

/-- The class that holds the members of a container that are written outside types. -/
def implicitClass (container : NodeIndex) (members : NodeList) (skipStatements : Bool) :
    TypeDeclaration :=
  let summary := t.arena.memberSummary members skipStatements false
  .mk { reference := t.reference container
        nameLocation := t.location container
        kind := .implicitClass
        name := TypeHeader.implicitClassName
        modifiers := .ofList [.internalMod, .partialMod, .sealedMod]
        facts := summary.facts
        memberNames := summary.names } []

/-- The types made up for the members of a compilation unit or namespace: a program for top-level
statements, where they are accepted, and then a class for what is written outside types. -/
def wrappers (container : NodeIndex) (members : NodeList) (listed : List ListedMember)
    (acceptsStatements : Bool) : List TypeDeclaration :=
  let statements := ListedMember.select listed .statement
  let program := match acceptsStatements, statements with
    | true, first :: _ => [t.simpleProgram container first statements]
    | _, _ => []
  let isOutside (m : ListedMember) : Bool :=
    m.memberClass == .nonType || (m.memberClass == .statement && !acceptsStatements)
  let outside :=
    if listed.any isOutside then [t.implicitClass container members acceptsStatements] else []
  program ++ outside

/-- The class of a script, which holds its top-level members, with the namespaces around it. The name
is taken apart from the end, so that they are made from the innermost one out. -/
def scriptClass (options : DeclarationOptions) (members : NodeList)
    (inner : List TypeDeclaration) : Declaration :=
  let path := Text.segmentsFromEnd options.scriptClassName
  let summary := t.arena.memberSummary members false false
  let script : TypeDeclaration := .mk
    { reference := t.reference t.root
      nameLocation := t.location t.root
      kind := if options.isSubmission then .submissionClass else .scriptClass
      name := path.head?.getD ""
      modifiers := .ofList [.internalMod, .partialMod, .sealedMod]
      facts := summary.facts
      memberNames := summary.names } inner
  path.tail.foldl (fun declaration name => .namespaceDecl
    { reference := t.reference t.root, nameLocation := t.location t.root, name } [declaration])
    (.typeDecl script)

end SyntaxTree

end DeclTree
