import DeclTree.Proofs.DottedNames
import DeclTree.Proofs.LatestOwner
import DeclTree.Proofs.Termination
/-!
Arenas that are made bottom-up, each node after the nodes that it uses. Whatever number of calls make
such an arena, its links lead to lower indices, and a node that is used once has as its parent the
node whose payload it is in.
-/
namespace DeclTree.Arena

section Order
variable {edits : List Edit} {i p : NodeIndex}

/-- The calls add every node after the nodes that it uses, and no two of them use the same node. An
index that never becomes that of a node does not count. -/
structure BottomUp (edits : List Edit) : Prop where
  once : edits.Pairwise fun e later => ∀ i, ((ofEdits edits).get? i).isSome →
    e.Mentions i → ¬ later.Mentions i
  given : ∀ before e after, edits = before ++ e :: after → ∀ i, ((ofEdits edits).get? i).isSome →
    e.Mentions i → ((ofEdits before).get? i).isSome

namespace BottomUp

/-- The parent of a node is the one node that links to it. -/
theorem parentOf_eq (h : BottomUp edits) (hadmitted : ∀ e ∈ edits, e.isAdmitted = true)
    (hi : ((ofEdits edits).get? i).isSome) (hlink : i ∈ (ofEdits edits).links p) :
    (ofEdits edits).parentOf i = p := by
  obtain ⟨s, d, hd, hmem⟩ := exists_payload?_of_mem_links hlink
  have howns : Owns edits p i := owns_of_payload? hadmitted hd (Shape.mem_links_iff.1 hmem)
  exact parentOf_eq_of_owns (h.once.imp fun hpair => hpair i hi)
    (fun before e after hedits he => h.given before e after hedits i hi he) hi howns

theorem descends (h : BottomUp edits) (hadmitted : ∀ e ∈ edits, e.isAdmitted = true) :
    (ofEdits edits).Descends := by
  intro i j hj hnode
  obtain ⟨s, d, hd, hmem⟩ := exists_payload?_of_mem_links hj
  obtain ⟨before, kind, span, after, hedits, hbefore, -⟩ := exists_call_of_payload? hadmitted hd
  rw [← hbefore]
  exact lt_additions_of_get? (h.given before _ after hedits j hnode (Shape.mem_links_iff.1 hmem))

/-- The indices that a call uses, but for missing ones. -/
def uses : Edit → NodeList
  | .node s _ _ d => (s.links d).filter (·.isPresent)
  | .token _ _ | .mark _ _ => []

theorem mem_uses {e : Edit} (hi : i.isPresent = true) (he : e.Mentions i) : i ∈ uses e := by
  cases e with
  | token kind span => exact he.elim
  | node s kind span d => exact List.mem_filter.2 ⟨Shape.mem_links_iff.2 he, hi⟩
  | mark target flags => exact he.elim

/-- Whether each of some calls on an arena uses only nodes that are there before it. -/
def usesAdded (a : Arena) : List Edit → Bool
  | [] => true
  | e :: rest => (uses e).all (fun i => (a.get? i).isSome) && usesAdded (e.apply a) rest

theorem isSome_get?_of_usesAdded {a : Arena} {before after : List Edit} {e : Edit}
    (h : usesAdded a (before ++ e :: after) = true) (hi : i ∈ uses e) :
    ((before.foldl Edit.apply a).get? i).isSome := by
  induction before generalizing a with
  | nil => exact List.all_eq_true.1 (Bool.and_eq_true_iff.1 h).1 i hi
  | cons first before ih => exact ih (Bool.and_eq_true_iff.1 h).2

/-- Whether some calls make their arena bottom-up can be computed. -/
theorem of_uses (honce : (edits.flatMap uses).Nodup) (hgiven : usesAdded {} edits = true) :
    BottomUp edits where
  once := by
    refine (List.nodup_flatMap.1 honce).2.imp fun hdisjoint i hi he hlater => ?_
    have hpresent : i.isPresent = true := by simp [NodeIndex.isPresent, isMissing_of_get? hi]
    exact hdisjoint (mem_uses hpresent he) (mem_uses hpresent hlater)
  given := by
    rintro before e after rfl i hi he
    have hpresent : i.isPresent = true := by simp [NodeIndex.isPresent, isMissing_of_get? hi]
    exact isSome_get?_of_usesAdded hgiven (mem_uses hpresent he)

end BottomUp

end Order

end DeclTree.Arena
