import DeclTree.Declaration.NamespaceChain
import DeclTree.Declaration.SourceType
import DeclTree.Declaration.Synthetic
/-!
Building declarations with a stack of frames, so that the nesting of the source is no nesting of
calls. A container leaves a frame that closes it below the frames of its members, and opens a bucket
for the declarations of these.
-/
namespace DeclTree

/-- The syntax tree, with the hints of its aliases. -/
structure Builder where
  tree : SyntaxTree
  fileHints : AttributeHints

/-- A namespace whose members are not built yet. -/
structure OpenNamespace where
  node : NodeIndex
  kind : SyntaxKind
  parts : Syntax.Namespace
  wrappers : List TypeDeclaration

/-- What a member turns out to be: a type with nothing below it, or a container with the members
that are to be built. -/
inductive Opened
  | leaf (header : TypeHeader)
  | ofNamespace (pending : OpenNamespace) (members : NodeList)
  | ofType (header : TypeHeader) (members : NodeList)

namespace Builder

variable (b : Builder)

def openNamespace (i : NodeIndex) (kind : SyntaxKind) : Except Fault Opened := do
  let d : Syntax.Namespace ← b.tree.payload .namespaceDecl kind i
  let listed ← b.tree.listMembers kind d.members
  let wrappers := b.tree.wrappers i d.members listed false
  return .ofNamespace ⟨i, kind, d, wrappers⟩ (ListedMember.select listed .declaration)

/-- Namespaces that are written inside a type are left out. -/
def openType (i : NodeIndex) (kind : SyntaxKind) (typeKind : TypeKind) : Except Fault Opened := do
  let d : Syntax.TypeDecl ← b.tree.payload .typeDecl kind i
  let listed ← b.tree.listMembers kind d.members
  let nested := (ListedMember.select listed .declaration).filter fun member =>
    !((b.tree.arena.kindOf? member).map (·.isNamespace)).getD false
  return .ofType (b.tree.classHeader b.fileHints i typeKind d) nested

def openDelegate (i : NodeIndex) (kind : SyntaxKind) : Except Fault Opened := do
  let d : Syntax.Delegate ← b.tree.payload .delegate kind i
  return .leaf (b.tree.delegateHeader b.fileHints i d)

def openEnum (i : NodeIndex) (kind : SyntaxKind) : Except Fault Opened := do
  let d : Syntax.EnumDecl ← b.tree.payload .enumDecl kind i
  return .leaf (b.tree.enumHeader b.fileHints i d)

/-- Looks at a member without going below it. -/
def openMember (i : NodeIndex) : Except Fault Opened := do
  let container := b.tree.containerKind i
  let h ← b.tree.memberHeader container i
  if h.kind.isNamespace then b.openNamespace i h.kind
  else match TypeKind.ofSyntax? h.kind with
  | some .delegateType => b.openDelegate i h.kind
  | some .enumType => b.openEnum i h.kind
  | some typeKind => b.openType i h.kind typeKind
  | none => .error (.unexpectedMember b.tree.id h.kind h.span container)

/-- The declaration of a namespace, from those of its members. The types made up for it come last. -/
def closeNamespace (pending : OpenNamespace) (inner : List Declaration) : Declaration :=
  b.tree.namespaceChain pending.node pending.kind pending.parts
    (inner ++ pending.wrappers.map .typeDecl)

/-- The declaration of a type, from those of its members. -/
def closeType (header : TypeHeader) (inner : List Declaration) : Declaration :=
  .typeDecl (.mk header (inner.filterMap (·.type?)))

/-- Work on the stack. -/
inductive Frame
  | visit (member : NodeIndex)
  | finishNamespace (pending : OpenNamespace)
  | finishType (header : TypeHeader)

/-- The declarations of one container so far, latest first. -/
abbrev Bucket := List Declaration

/-- What is left to do, and the buckets of the open containers, innermost first. -/
structure State where
  stack : List Frame
  buckets : List Bucket

/-- Puts a declaration into the innermost bucket. -/
def put (d : Declaration) : List Bucket → List Bucket
  | bucket :: outer => (d :: bucket) :: outer
  | [] => []

/-- The declarations of the innermost bucket in order, and the other buckets. -/
def take : List Bucket → List Declaration × List Bucket
  | bucket :: outer => (bucket.reverse, outer)
  | [] => ([], [])

/-- Puts a container's members on the stack, the first on top. -/
def push (members : NodeList) (finish : Frame) (stack : List Frame) : List Frame :=
  members.map .visit ++ finish :: stack

/-- Does what the top frame says; the state is what lies below it. -/
def step (frame : Frame) (state : State) : Except Fault State :=
  match frame with
  | .visit member => do
    match ← b.openMember member with
    | .leaf header =>
      return { state with buckets := put (.typeDecl (.mk header [])) state.buckets }
    | .ofNamespace pending members =>
      return ⟨push members (.finishNamespace pending) state.stack, [] :: state.buckets⟩
    | .ofType header members =>
      return ⟨push members (.finishType header) state.stack, [] :: state.buckets⟩
  | .finishNamespace pending =>
    let (inner, outer) := take state.buckets
    .ok { state with buckets := put (b.closeNamespace pending inner) outer }
  | .finishType header =>
    let (inner, outer) := take state.buckets
    .ok { state with buckets := put (closeType header inner) outer }

/-- Works until the stack is empty, for a number of steps at most. -/
def run : Nat → State → Except Fault (List Declaration)
  | _, ⟨[], buckets⟩ => .ok (take buckets).1
  | 0, ⟨_ :: _, _⟩ => .error (.endless b.tree.id)
  | steps + 1, ⟨frame :: stack, buckets⟩ => do run steps (← b.step frame ⟨stack, buckets⟩)

/-- The declarations of a list of members, in order. -/
def declarationsOf (members : NodeList) : Except Fault (List Declaration) :=
  b.run (b.tree.arena.walkBudget members) ⟨members.map .visit, [[]]⟩

end Builder

end DeclTree
