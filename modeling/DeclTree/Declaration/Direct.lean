import DeclTree.Declaration.Frames
/-!
Building declarations by recursion on the nesting of the source: the plain reading of what the stack
of frames does. The depth is a bound on the nesting.
-/
namespace DeclTree.Builder

variable (b : Builder)

/-- The declaration of a member, with everything below it. -/
def declarationFrom : Nat → NodeIndex → Except Fault Declaration
  | 0, _ => .error (.endless b.tree.id)
  | depth + 1, member => do
    match ← b.openMember member with
    | .leaf header => return .typeDecl (.mk header [])
    | .ofNamespace pending members =>
      return b.closeNamespace pending (← members.mapM (declarationFrom depth))
    | .ofType header members =>
      return closeType header (← members.mapM (declarationFrom depth))

/-- The declarations of a list of members, in order; the first fault in pre-order decides. -/
def declarationsFrom (depth : Nat) (members : NodeList) : Except Fault (List Declaration) :=
  members.mapM (b.declarationFrom depth)

end DeclTree.Builder
