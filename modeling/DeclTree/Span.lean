/-!
Half-open ranges of a source text, and locations: a range together with the tree it lies in.
-/
namespace DeclTree

/-- Holds the positions from `start` up to, and without, `stop`. -/
structure Span where
  start : UInt32
  stop : UInt32
  deriving DecidableEq, Repr, Inhabited

namespace Span

/-- The empty range at a position. -/
def point (pos : UInt32) : Span := ⟨pos, pos⟩

/-- A range that stops before it starts is empty, so its length is never negative. -/
def length (s : Span) : UInt32 := if s.start ≤ s.stop then s.stop - s.start else 0

def isEmpty (s : Span) : Bool := s.stop ≤ s.start

def contains (s : Span) (pos : UInt32) : Bool := s.start ≤ pos && pos < s.stop

/-- The smallest range that holds both. -/
def cover (s t : Span) : Span := ⟨min s.start t.start, max s.stop t.stop⟩

/-- Ranges are ordered by where they start, and then by where they stop. -/
def order (s t : Span) : Ordering := (compare s.start t.start).then (compare s.stop t.stop)

def toText (s : Span) : String := s!"{s.start.toNat}..{s.stop.toNat}"

theorem contains_iff (s : Span) (pos : UInt32) :
    s.contains pos ↔ s.start ≤ pos ∧ pos < s.stop := by
  simp [contains]

theorem point_isEmpty (pos : UInt32) : (point pos).isEmpty := by
  simp [point, isEmpty]

end Span

/-- Tells the trees of one run apart. -/
structure TreeId where
  number : UInt32
  deriving DecidableEq, Repr, Inhabited

def TreeId.toText (t : TreeId) : String := s!"#{t.number.toNat}"

/-- A range of one tree. It stays meaningful when the results of many trees are merged. -/
structure Location where
  tree : TreeId
  span : Span
  deriving DecidableEq, Repr, Inhabited

def Location.toText (l : Location) : String := l.tree.toText ++ "@" ++ l.span.toText

end DeclTree
