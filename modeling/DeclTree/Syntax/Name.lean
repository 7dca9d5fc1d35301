import DeclTree.Syntax.Arena
/-!
Names in a syntax tree: their text, their last identifier, and the chain of their segments. In an
arena without cycles no path has more than `size` nodes, so that depth is all a walk needs.
-/
namespace DeclTree

/-- One segment of a dotted name, with the name that ends at it: `B` with `A.B` in `A.B.C`. -/
structure NameSegment where
  segment : NodeIndex
  upTo : NodeIndex
  deriving DecidableEq, Repr

namespace Arena

variable (a : Arena)

/-- The last identifier of a name: `C` for `A.B.C`, `B` for `global::B`, `List` for `List<T>`. -/
def lastIdentifierFrom : Nat → NodeIndex → Option String
  | 0, _ => none
  | depth + 1, i =>
    match a.kindOf? i with
    | some .identifierName | some .identifierToken => a.identifierText? i
    | some .genericName => do
      let d : Syntax.GenericName ← a.payload? .genericName i
      a.identifierText? d.identifier
    | some .qualifiedName | some .aliasQualifiedName => do
      let d : Syntax.QualifiedName ← a.payload? .qualifiedName i
      lastIdentifierFrom depth d.right
    | _ => none

def lastIdentifier? (i : NodeIndex) : Option String := a.lastIdentifierFrom (a.size + 1) i

/-- The text of a name with its dots, colons and type arguments. A type argument without a text
is left out; any other part without one leaves the whole name without. -/
def nameTextFrom : Nat → NodeIndex → Option String
  | 0, _ => none
  | depth + 1, i =>
    match a.kindOf? i with
    | some .identifierName | some .identifierToken | some .predefinedType => a.identifierText? i
    | some .genericName => do
      let d : Syntax.GenericName ← a.payload? .genericName i
      let head ← a.identifierText? d.identifier
      let arguments := d.typeArguments.filterMap (nameTextFrom depth)
      return head ++ "<" ++ ", ".intercalate arguments ++ ">"
    | some .qualifiedName => do
      let d : Syntax.QualifiedName ← a.payload? .qualifiedName i
      return (← nameTextFrom depth d.left) ++ "." ++ (← nameTextFrom depth d.right)
    | some .aliasQualifiedName => do
      let d : Syntax.QualifiedName ← a.payload? .qualifiedName i
      return (← nameTextFrom depth d.left) ++ "::" ++ (← nameTextFrom depth d.right)
    | _ => none

def nameText? (i : NodeIndex) : Option String := a.nameTextFrom (a.size + 1) i

/-- The parts of a name `left.right`. -/
def qualified? (i : NodeIndex) : Option Syntax.QualifiedName :=
  if a.kindOf? i = some .qualifiedName then a.payload? .qualifiedName i else none

/-- The segments of a name, outermost first. The nodes for `A`, `B` and `C` make up `A.B.C`;
`global::A.B` has the two segments `global::A` and `B`. -/
def segmentsFrom : Nat → NodeIndex → List NameSegment
  | 0, i => [⟨i, i⟩]
  | depth + 1, i =>
    match a.qualified? i with
    | some d => segmentsFrom depth d.left ++ [⟨d.right, i⟩]
    | none => [⟨i, i⟩]

def segments (i : NodeIndex) : List NameSegment := a.segmentsFrom a.size i

/-- The simple name of a segment: what follows the colons of `alias::Name`. -/
def simpleName (segment : NodeIndex) : NodeIndex :=
  if a.kindOf? segment = some .aliasQualifiedName then
    match a.payload? .qualifiedName segment with
    | some (d : Syntax.QualifiedName) => d.right
    | none => segment
  else segment

def isGenericSegment (segment : NodeIndex) : Bool :=
  a.kindOf? (a.simpleName segment) == some .genericName

def isAliasedSegment (segment : NodeIndex) : Bool :=
  a.kindOf? segment == some .aliasQualifiedName

/-- The declared text of a segment; a segment that is no name has the empty text. -/
def segmentText (segment : NodeIndex) : String := (a.lastIdentifier? segment).getD ""

theorem segmentsFrom_ne_nil (depth : Nat) (i : NodeIndex) : a.segmentsFrom depth i ≠ [] := by
  cases depth with
  | zero => simp [segmentsFrom]
  | succ depth =>
    unfold segmentsFrom
    split <;> simp

end Arena

end DeclTree
