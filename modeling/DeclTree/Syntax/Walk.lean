import DeclTree.Syntax.Arena
/-!
Walks along links with a stack of pending nodes. A walk takes the node on top of the stack and puts
the nodes that follow it there instead. It is given a number of steps, and it has no result when
the steps are used up before the stack is empty.
-/
namespace DeclTree.Walk

variable (next : NodeIndex → NodeList)

/-- The visited nodes, in the order of the visits. -/
def visited? : Nat → NodeList → Option NodeList
  | _, [] => some []
  | 0, _ :: _ => none
  | steps + 1, i :: rest => (visited? steps (next i ++ rest)).map (i :: ·)

/-- Whether the walk meets a node that satisfies `p`. It ends at the first such node. -/
def meets? (p : NodeIndex → Bool) : Nat → NodeList → Option Bool
  | _, [] => some false
  | 0, _ :: _ => none
  | steps + 1, i :: rest => if p i then some true else meets? p steps (next i ++ rest)

/-- A node that a walk from `i` comes to. -/
inductive Reaches : NodeIndex → NodeIndex → Prop
  | refl (i) : Reaches i i
  | step {i j k} : j ∈ next i → Reaches j k → Reaches i k

variable {next}

theorem meets?_eq_any {p : NodeIndex → Bool} {steps : Nat} {stack visits : NodeList}
    (h : visited? next steps stack = some visits) :
    meets? next p steps stack = some (visits.any p) := by
  induction steps generalizing stack visits with
  | zero =>
    cases stack with
    | nil => cases h; rfl
    | cons i rest => cases h
  | succ steps ih =>
    cases stack with
    | nil => cases h; rfl
    | cons i rest =>
      simp only [visited?, Option.map_eq_some_iff] at h
      obtain ⟨later, hlater, rfl⟩ := h
      by_cases hp : p i
      · simp [meets?, hp]
      · simp [meets?, hp, ih hlater]

end DeclTree.Walk
