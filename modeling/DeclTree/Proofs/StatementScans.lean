import DeclTree.Proofs.Descent
/-!
What the scans of a statement find: a node that they look for, if a way from the statement leads to it
that goes through children and does not enter a nested function. The scans end at the first such node,
and which of the children come first makes no difference.
-/
namespace DeclTree

namespace Arena

/-- The children of statements and expressions have lower indices, but for those that name no node.
Nodes may be shared. -/
def ChildrenDescend (a : Arena) : Prop :=
  ∀ i (d : Syntax.Composite) j, a.payload? .composite i = some d → j ∈ d.children →
    (a.get? j).isSome → j.toNat < i.toNat

variable {a : Arena} {i j s n : NodeIndex}

theorem mem_innerStatements : j ∈ a.innerStatements i ↔ ∃ h d, a.get? i = some h ∧
    h.kind.isNestedFunction = false ∧ a.payload? .composite i = some (d : Syntax.Composite) ∧
    j ∈ d.children := by
  cases hget : a.get? i with
  | none => simp [innerStatements, kindOf?, hget]
  | some h =>
    cases hnested : h.kind.isNestedFunction with
    | true => simp [innerStatements, kindOf?, hget, hnested]
    | false =>
      cases hd : a.payload? .composite i with
      | none => simp [innerStatements, kindOf?, hget, hnested, hd]
      | some d => simp [innerStatements, kindOf?, hget, hnested, hd]

theorem ChildrenDescend.lowers (h : a.ChildrenDescend) :
    Walk.Lowers a.innerStatements a.rank := by
  intro i j hj
  obtain ⟨hd, d, hget, -, hpayload, hchild⟩ := mem_innerStatements.1 hj
  rw [rank_of_get? hget]
  cases hgetj : a.get? j with
  | none => simp [rank, hgetj]
  | some hd' =>
    have hlt := h i d j hpayload hchild (by simp [hgetj])
    rw [rank_of_get? hgetj]
    omega

section Scan
variable {p : NodeIndex → Bool} {order : NodeIndex → NodeList}

end Scan

end Arena

end DeclTree
