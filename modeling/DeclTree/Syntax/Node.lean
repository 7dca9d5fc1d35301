import DeclTree.Span
import DeclTree.Syntax.Kind
/-!
Node indices and node headers. A header is what all nodes have in common; what is particular to a
kind lies in a pool of payloads, at the slot that the header names.
-/
namespace DeclTree

/-- Names a node of an arena. An index may also dangle, that is, name no node. -/
structure NodeIndex where
  number : UInt32
  deriving DecidableEq, Repr

namespace NodeIndex

/-- The index that stands for a node that was left out. It names no node of any arena. -/
def missing : NodeIndex := ⟨0xFFFFFFFF⟩

instance : Inhabited NodeIndex := ⟨missing⟩

def isMissing (i : NodeIndex) : Bool := i == missing

def isPresent (i : NodeIndex) : Bool := !i.isMissing

def ofNat (n : Nat) : NodeIndex := ⟨UInt32.ofNat n⟩

def toNat (i : NodeIndex) : Nat := i.number.toNat

end NodeIndex

abbrev NodeList := List NodeIndex

/-- The bits of a header that some kinds of node carry. -/
abbrev NodeFlags := UInt16

namespace NodeFlags

/-- The statement begins with `await`. -/
def awaitKeyword : NodeFlags := 1

/-- Error recovery made the node. -/
def containsDiagnostics : NodeFlags := 2

end NodeFlags

/-- What every node has. -/
structure Header where
  kind : SyntaxKind
  flags : NodeFlags
  span : Span
  slot : UInt32
  deriving DecidableEq, Repr

namespace Header

/-- The slot of a node without a payload. -/
def noSlot : UInt32 := 0xFFFFFFFF

def hasSlot (h : Header) : Bool := h.slot != noSlot

def hasFlag (h : Header) (flag : NodeFlags) : Bool := h.flags &&& flag != 0

end Header

end DeclTree
