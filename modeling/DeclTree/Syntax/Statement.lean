import DeclTree.Syntax.Walk
/-!
Facts about a statement that can be told without binding: whether it awaits, yields, or returns a
value. The bodies of lambdas, anonymous methods and local functions belong to another function, so
the walk does not go into them.
-/
namespace DeclTree.Arena

variable (a : Arena)

/-- The nodes to go on with after a statement or expression, in source order. -/
def innerStatements (i : NodeIndex) : NodeList :=
  match a.kindOf? i with
  | some kind =>
    if kind.isNestedFunction then []
    else ((a.payload? .composite i).map fun (d : Syntax.Composite) => d.children).getD []
  | none => []

/-- Whether a statement, or a node within it but outside nested functions, satisfies `p`. -/
def containsNode (statement : NodeIndex) (p : NodeIndex → Bool) : Bool :=
  (Walk.meets? a.innerStatements p (a.walkBudget [statement]) [statement]).getD false

/-- An `await` expression, or a loop, `using` or declaration that begins with `await`. -/
def isAwait (i : NodeIndex) : Bool :=
  match a.get? i with
  | some h =>
    match h.kind with
    | .awaitExpression => true
    | .localDeclarationStatement | .forEachStatement | .usingStatement =>
      h.hasFlag NodeFlags.awaitKeyword
    | _ => false
  | none => false

def isYield (i : NodeIndex) : Bool :=
  a.kindOf? i == some .yieldReturnStatement || a.kindOf? i == some .yieldBreakStatement

/-- A `return` statement with an expression. -/
def isValueReturn (i : NodeIndex) : Bool :=
  a.kindOf? i == some .returnStatement &&
    ((a.payload? .composite i).map fun (d : Syntax.Composite) => !d.children.isEmpty).getD false

def hasAwait (statement : NodeIndex) : Bool := a.containsNode statement a.isAwait

def hasYield (statement : NodeIndex) : Bool := a.containsNode statement a.isYield

def hasValueReturn (statement : NodeIndex) : Bool := a.containsNode statement a.isValueReturn

def isEmptyStatement (statement : NodeIndex) : Bool :=
  a.kindOf? statement == some .emptyStatement

end DeclTree.Arena
