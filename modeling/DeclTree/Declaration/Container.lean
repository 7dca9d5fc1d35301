import DeclTree.Declaration.Fault
import DeclTree.Syntax.Tree
/-!
Containers and the members that they list. Each entry of a list of members belongs to one class of
member, or else the tree is at fault.
-/
namespace DeclTree

/-- How a container treats a member. -/
inductive MemberClass
  /-- It becomes a declaration below that of the container. -/
  | declaration
  | statement
  /-- It is passed over. -/
  | incomplete
  /-- A field, method, property or other member that is no type. -/
  | nonType
  deriving DecidableEq, Repr

/-- The class of a kind of member; other kinds are no members. -/
def SyntaxKind.memberClass? (k : SyntaxKind) : Option MemberClass :=
  if k.isDeclaration then some .declaration
  else if k = .globalStatement then some .statement
  else if k = .incompleteMember then some .incomplete
  else match k.shape? with
  | some .field | some .method | some .property => some .nonType
  | _ => none

/-- A member with its class. -/
structure ListedMember where
  node : NodeIndex
  memberClass : MemberClass
  deriving DecidableEq, Repr

namespace ListedMember

/-- The members of a class. -/
def select (members : List ListedMember) (c : MemberClass) : NodeList :=
  (members.filter (·.memberClass == c)).map (·.node)

end ListedMember

namespace SyntaxTree

variable (t : SyntaxTree)

/-- The node of an entry in the member list of a container. -/
def memberHeader (container : SyntaxKind) (i : NodeIndex) : Except Fault Header :=
  match t.arena.get? i with
  | some h => .ok h
  | none => .error (.danglingMember t.id i container)

def classify (container : SyntaxKind) (i : NodeIndex) : Except Fault ListedMember := do
  let h ← t.memberHeader container i
  match h.kind.memberClass? with
  | some c => .ok ⟨i, c⟩
  | none => .error (.unexpectedMember t.id h.kind h.span container)

/-- The members of a list with their classes; the first entry at fault decides. -/
def listMembers (container : SyntaxKind) (members : NodeList) :
    Except Fault (List ListedMember) :=
  members.mapM (t.classify container)

/-- The payload that a node of this kind must have. -/
def payload (s : Shape) (kind : SyntaxKind) (i : NodeIndex) : Except Fault s.Data :=
  match t.arena.payload? s i with
  | some d => .ok d
  | none => .error (.missingPayload t.id i kind s)

/-- The kind of a node's parent; what has no parent counts as listed in the compilation unit. -/
def containerKind (i : NodeIndex) : SyntaxKind :=
  (t.arena.kindOf? (t.arena.parentOf i)).getD .compilationUnit

end SyntaxTree

end DeclTree
