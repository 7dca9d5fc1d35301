import DeclTree.Syntax.Shape
/-!
The arena of a syntax tree: its headers, its parent links, and one pool of payloads for each shape.
The main lemmas say that a pushed payload goes to the end of its own pool and to no other.
-/
namespace DeclTree

/-- One pool of payloads for each shape. -/
structure Pools where
  identifiers : Array Syntax.Identifier := #[]
  genericNames : Array Syntax.GenericName := #[]
  qualifiedNames : Array Syntax.QualifiedName := #[]
  compilationUnits : Array Syntax.CompilationUnit := #[]
  externAliases : Array Syntax.ExternAlias := #[]
  usingDirectives : Array Syntax.UsingDirective := #[]
  referenceDirectives : Array Syntax.ReferenceDirective := #[]
  attributeLists : Array Syntax.AttributeList := #[]
  attributeEntries : Array Syntax.AttributeEntry := #[]
  namespaces : Array Syntax.Namespace := #[]
  typeDecls : Array Syntax.TypeDecl := #[]
  delegates : Array Syntax.Delegate := #[]
  enumDecls : Array Syntax.EnumDecl := #[]
  enumMembers : Array Syntax.EnumMember := #[]
  fields : Array Syntax.Field := #[]
  declarators : Array Syntax.Declarator := #[]
  methods : Array Syntax.Method := #[]
  properties : Array Syntax.Property := #[]
  accessors : Array Syntax.Accessor := #[]
  parameters : Array Syntax.Parameter := #[]
  typeParameters : Array Syntax.TypeParameter := #[]
  constraintClauses : Array Syntax.ConstraintClause := #[]
  globalStatements : Array Syntax.GlobalStatement := #[]
  incompleteMembers : Array Syntax.IncompleteMember := #[]
  composites : Array Syntax.Composite := #[]
  deriving DecidableEq

namespace Pools

instance : Inhabited Pools := ⟨{}⟩

/-- The pool of a shape. -/
def of (p : Pools) : (s : Shape) → Array s.Data
  | .identifier => p.identifiers
  | .genericName => p.genericNames
  | .qualifiedName => p.qualifiedNames
  | .compilationUnit => p.compilationUnits
  | .externAlias => p.externAliases
  | .usingDirective => p.usingDirectives
  | .referenceDirective => p.referenceDirectives
  | .attributeList => p.attributeLists
  | .attributeEntry => p.attributeEntries
  | .namespaceDecl => p.namespaces
  | .typeDecl => p.typeDecls
  | .delegate => p.delegates
  | .enumDecl => p.enumDecls
  | .enumMember => p.enumMembers
  | .field => p.fields
  | .declarator => p.declarators
  | .method => p.methods
  | .property => p.properties
  | .accessor => p.accessors
  | .parameter => p.parameters
  | .typeParameter => p.typeParameters
  | .constraintClause => p.constraintClauses
  | .globalStatement => p.globalStatements
  | .incompleteMember => p.incompleteMembers
  | .composite => p.composites

/-- Adds a payload at the end of the pool of its shape. -/
def push (p : Pools) : (s : Shape) → s.Data → Pools
  | .identifier, d => { p with identifiers := p.identifiers.push d }
  | .genericName, d => { p with genericNames := p.genericNames.push d }
  | .qualifiedName, d => { p with qualifiedNames := p.qualifiedNames.push d }
  | .compilationUnit, d => { p with compilationUnits := p.compilationUnits.push d }
  | .externAlias, d => { p with externAliases := p.externAliases.push d }
  | .usingDirective, d => { p with usingDirectives := p.usingDirectives.push d }
  | .referenceDirective, d => { p with referenceDirectives := p.referenceDirectives.push d }
  | .attributeList, d => { p with attributeLists := p.attributeLists.push d }
  | .attributeEntry, d => { p with attributeEntries := p.attributeEntries.push d }
  | .namespaceDecl, d => { p with namespaces := p.namespaces.push d }
  | .typeDecl, d => { p with typeDecls := p.typeDecls.push d }
  | .delegate, d => { p with delegates := p.delegates.push d }
  | .enumDecl, d => { p with enumDecls := p.enumDecls.push d }
  | .enumMember, d => { p with enumMembers := p.enumMembers.push d }
  | .field, d => { p with fields := p.fields.push d }
  | .declarator, d => { p with declarators := p.declarators.push d }
  | .method, d => { p with methods := p.methods.push d }
  | .property, d => { p with properties := p.properties.push d }
  | .accessor, d => { p with accessors := p.accessors.push d }
  | .parameter, d => { p with parameters := p.parameters.push d }
  | .typeParameter, d => { p with typeParameters := p.typeParameters.push d }
  | .constraintClause, d => { p with constraintClauses := p.constraintClauses.push d }
  | .globalStatement, d => { p with globalStatements := p.globalStatements.push d }
  | .incompleteMember, d => { p with incompleteMembers := p.incompleteMembers.push d }
  | .composite, d => { p with composites := p.composites.push d }

@[simp] theorem of_push_self (p : Pools) (s : Shape) (d : s.Data) :
    (p.push s d).of s = (p.of s).push d := by
  cases s <;> rfl

@[simp] theorem of_push_of_ne (p : Pools) {s t : Shape} (d : s.Data) (h : t ≠ s) :
    (p.push s d).of t = p.of t := by
  cases s <;> cases t <;> first | rfl | exact absurd rfl h

end Pools

/-- Every node of one syntax tree. A node's index is its place among the headers. -/
structure Arena where
  headers : Array Header := #[]
  parents : Array NodeIndex := #[]
  pools : Pools := {}
  deriving DecidableEq

namespace Arena

instance : Inhabited Arena := ⟨{}⟩

def size (a : Arena) : Nat := a.headers.size

def isEmpty (a : Arena) : Bool := a.headers.isEmpty

/-- The header that an index names, if it names a node. -/
def get? (a : Arena) (i : NodeIndex) : Option Header :=
  if i.isMissing then none else a.headers[i.toNat]?

def kindOf? (a : Arena) (i : NodeIndex) : Option SyntaxKind := (a.get? i).map (·.kind)

/-- The parent link of a node; missing for the root and for what is no node. -/
def parentOf (a : Arena) (i : NodeIndex) : NodeIndex :=
  if i.isMissing then .missing else a.parents[i.toNat]?.getD .missing

/-- The payload of a node whose kind, as it is now, has the given shape. -/
def payload? (a : Arena) (s : Shape) (i : NodeIndex) : Option s.Data :=
  match a.get? i with
  | some h => if h.kind.shape? = some s ∧ h.hasSlot then (a.pools.of s)[h.slot.toNat]? else none
  | none => none

/-- The indices that a node's payload mentions. -/
def links (a : Arena) (i : NodeIndex) : NodeList :=
  match (a.kindOf? i).bind (·.shape?) with
  | some s => ((a.payload? s i).map s.links).getD []
  | none => []

/-- Sets the parent link of a node, if there is such a node. -/
def setParent (a : Arena) (child parent : NodeIndex) : Arena :=
  if child.isMissing then a
  else { a with parents := a.parents.setIfInBounds child.toNat parent }

/-- Adds a header, with no parent link yet. -/
def pushHeader (a : Arena) (h : Header) : Arena :=
  { a with headers := a.headers.push h, parents := a.parents.push .missing }

/-- The index that the next node gets. -/
def next (a : Arena) : NodeIndex := .ofNat a.headers.size

/-- Adds a node without a payload. -/
def addToken (a : Arena) (kind : SyntaxKind) (span : Span) : NodeIndex × Arena :=
  (a.next, a.pushHeader ⟨kind, 0, span, Header.noSlot⟩)

/-- Adds a node with a payload, and makes it the parent of every node that the payload mentions. -/
def add (a : Arena) (s : Shape) (kind : SyntaxKind) (span : Span) (d : s.Data) :
    NodeIndex × Arena :=
  let slot := UInt32.ofNat (a.pools.of s).size
  let index := a.next
  let stored := { a with pools := a.pools.push s d }.pushHeader ⟨kind, 0, span, slot⟩
  (index, (s.links d).foldl (fun arena child => arena.setParent child index) stored)

/-- Changes the header of a node, if there is such a node. -/
def modify (a : Arena) (i : NodeIndex) (f : Header → Header) : Arena :=
  if i.isMissing then a else { a with headers := a.headers.modify i.toNat f }

/-- Sets further flags of a node. -/
def addFlags (a : Arena) (i : NodeIndex) (flags : NodeFlags) : Arena :=
  a.modify i fun h => { h with flags := h.flags ||| flags }

/-- The text of an identifier token, identifier name or predefined type. -/
def identifierText? (a : Arena) (i : NodeIndex) : Option String :=
  (a.payload? .identifier i).map fun (d : Syntax.Identifier) => d.text

theorem identifierText?_eq_some_iff {a : Arena} {i : NodeIndex} {text : String} :
    a.identifierText? i = some text ↔
      a.payload? .identifier i = some (⟨text⟩ : Syntax.Identifier) := by
  rw [identifierText?, Option.map_eq_some_iff]
  refine ⟨?_, fun h => ⟨_, h, rfl⟩⟩
  rintro ⟨d, hd, rfl⟩
  exact hd

/-- The kinds of the nodes of a list, in order; what names no node is left out. -/
def kindsOf (a : Arena) (is : NodeList) : List SyntaxKind := is.filterMap a.kindOf?

/-- Whether some node of a list has the kind. -/
def hasKind (a : Arena) (is : NodeList) (kind : SyntaxKind) : Bool := (a.kindsOf is).contains kind

/-- The list of members that a compilation unit, namespace, type or enum owns. -/
def members? (a : Arena) (i : NodeIndex) : Option NodeList :=
  match (a.kindOf? i).bind (·.shape?) with
  | some .compilationUnit =>
    (a.payload? .compilationUnit i).map fun (d : Syntax.CompilationUnit) => d.members
  | some .namespaceDecl => (a.payload? .namespaceDecl i).map fun (d : Syntax.Namespace) => d.members
  | some .typeDecl => (a.payload? .typeDecl i).map fun (d : Syntax.TypeDecl) => d.members
  | some .enumDecl => (a.payload? .enumDecl i).map fun (d : Syntax.EnumDecl) => d.members
  | _ => none

/-- How many links all nodes have together. -/
def linkCount (a : Arena) : Nat := ((List.range a.size).flatMap fun n => a.links (.ofNat n)).length

/-- Enough steps for a walk along links that starts from a list of nodes and that visits a node
again each time a link leads to it. If the links have no cycle then a path has at most `a.size`
nodes, and every node has fewer links than the base of the power. -/
def walkBudget (a : Arena) (start : NodeList) : Nat :=
  Nat.pow (start.length + a.linkCount + 2) (a.size + 1)

theorem get?_missing (a : Arena) : a.get? .missing = none := by
  simp [get?, NodeIndex.isMissing]

theorem payload?_eq_none_of_get? {a : Arena} {i : NodeIndex} (h : a.get? i = none) (s : Shape) :
    a.payload? s i = none := by
  simp [payload?, h]

theorem isSome_get?_of_payload? {a : Arena} {i : NodeIndex} {s : Shape} {d : s.Data}
    (h : a.payload? s i = some d) : (a.get? i).isSome := by
  cases hget : a.get? i with
  | none =>
    rw [payload?_eq_none_of_get? hget] at h
    cases h
  | some hd => rfl

theorem shape?_of_payload? {a : Arena} {i : NodeIndex} {s : Shape} {d : s.Data}
    (h : a.payload? s i = some d) : (a.kindOf? i).bind (·.shape?) = some s := by
  unfold payload? at h
  split at h
  · rename_i hd hget
    split at h
    · rename_i hs
      simp [kindOf?, hget, hs.1]
    · cases h
  · cases h

/-- A node has a payload of one shape at most. -/
theorem payload?_eq_none_of_ne {a : Arena} {i : NodeIndex} {s t : Shape} {d : s.Data}
    (h : a.payload? s i = some d) (ht : t ≠ s) : a.payload? t i = none := by
  cases htd : a.payload? t i with
  | none => rfl
  | some e =>
    have hs := shape?_of_payload? h
    rw [shape?_of_payload? htd] at hs
    exact absurd (Option.some.inj hs) ht

end Arena

end DeclTree
