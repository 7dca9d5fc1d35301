import DeclTree.Proofs.Descent
import Mathlib.Data.Finset.Card
import Mathlib.Order.Monotone.Basic
/-!
How deep a recursion over the nodes of an arena has to go. If it ends at any depth, then it ends at
the size of the arena, wherever the links lead: from one depth to the next it comes to an end at a
further node, or else at no further node ever again.
-/
namespace DeclTree.Arena
variable {a : Arena} {Done : Nat → NodeIndex → Prop}

/-- Where a recursion ends, depth by depth. What names no node needs no depth, and what ends one
deeper depends only on what ends below it. -/
structure Deepens (a : Arena) (Done : Nat → NodeIndex → Prop) : Prop where
  grows : ∀ depth i, Done depth i → Done (depth + 1) i
  outside : ∀ depth i, a.get? i = none → Done depth i
  step : ∀ m n i, (∀ j, Done m j → Done n j) → Done (m + 1) i → Done (n + 1) i

open Classical in
/-- The nodes at which a recursion of the given depth ends. -/
noncomputable def doneNodes (a : Arena) (Done : Nat → NodeIndex → Prop) (depth : Nat) :
    Finset Nat :=
  (Finset.range a.size).filter fun n => Done depth (.ofNat n)

theorem mem_doneNodes {depth n : Nat} :
    n ∈ a.doneNodes Done depth ↔ n < a.size ∧ Done depth (.ofNat n) := by
  simp [doneNodes]

theorem card_doneNodes_le (depth : Nat) : (a.doneNodes Done depth).card ≤ a.size := by
  have hsub : a.doneNodes Done depth ⊆ Finset.range a.size :=
    fun n hn => Finset.mem_range.2 (mem_doneNodes.1 hn).1
  have hcard := Finset.card_le_card hsub
  rwa [Finset.card_range] at hcard

namespace Deepens

theorem mono (h : a.Deepens Done) {m n : Nat} (hmn : m ≤ n) {i : NodeIndex} (hi : Done m i) :
    Done n i := by
  induction hmn with
  | refl => exact hi
  | step _ ih => exact h.grows _ i ih

theorem of_doneNodes (h : a.Deepens Done) {m n : Nat}
    (hsub : a.doneNodes Done m ⊆ a.doneNodes Done n) (i : NodeIndex) (hi : Done m i) :
    Done n i := by
  cases hget : a.get? i with
  | none => exact h.outside n i hget
  | some hd =>
    have hmem : i.toNat ∈ a.doneNodes Done m :=
      mem_doneNodes.2 ⟨lt_size_of_get? hget, by rwa [ofNat_toNat]⟩
    have hdone := (mem_doneNodes.1 (hsub hmem)).2
    rwa [ofNat_toNat] at hdone

theorem doneNodes_subset (h : a.Deepens Done) {m n : Nat} (hmn : m ≤ n) :
    a.doneNodes Done m ⊆ a.doneNodes Done n := by
  intro x hx
  obtain ⟨hlt, hdone⟩ := mem_doneNodes.1 hx
  exact mem_doneNodes.2 ⟨hlt, h.mono hmn hdone⟩

theorem doneNodes_eq_of_card (h : a.Deepens Done) {m n : Nat} (hmn : m ≤ n)
    (hcard : (a.doneNodes Done m).card = (a.doneNodes Done n).card) :
    a.doneNodes Done m = a.doneNodes Done n :=
  Finset.eq_of_subset_of_card_le (h.doneNodes_subset hmn) (by omega)

/-- Once a depth takes in no further node, no greater one does. -/
theorem card_stable (h : a.Deepens Done) {m : Nat}
    (hcard : (a.doneNodes Done m).card = (a.doneNodes Done (m + 1)).card) :
    (a.doneNodes Done (m + 1)).card = (a.doneNodes Done (m + 2)).card := by
  have heq := h.doneNodes_eq_of_card (Nat.le_succ m) hcard
  have hstep : ∀ i, Done (m + 2) i → Done (m + 1) i :=
    fun i => h.step (m + 1) m i (h.of_doneNodes heq.ge)
  have hback : a.doneNodes Done (m + 2) ⊆ a.doneNodes Done (m + 1) := by
    intro x hx
    obtain ⟨hlt, hdone⟩ := mem_doneNodes.1 hx
    exact mem_doneNodes.2 ⟨hlt, hstep _ hdone⟩
  rw [Finset.Subset.antisymm (h.doneNodes_subset (Nat.le_succ (m + 1))) hback]

/-- What ends at some depth ends at the size of the arena. -/
theorem done_size (h : a.Deepens Done) {n : Nat} {i : NodeIndex} (hi : Done n i) :
    Done a.size i := by
  by_cases hn : n ≤ a.size
  · exact h.mono hn hi
  · have hle : a.size ≤ n := by omega
    have hmono : Monotone fun m => (a.doneNodes Done m).card :=
      monotone_nat_of_le_succ fun m => Finset.card_le_card (h.doneNodes_subset (Nat.le_succ m))
    have hcard : (a.doneNodes Done n).card = (a.doneNodes Done a.size).card :=
      Nat.stabilises_of_monotone hmono card_doneNodes_le (fun _ => h.card_stable) hle
    have heq := h.doneNodes_eq_of_card hle hcard.symm
    exact h.of_doneNodes heq.ge i hi

end Deepens

section LastIdentifier
variable {m n : Nat} {i : NodeIndex} {text : String}

theorem get?_of_lastIdentifierFrom (h : a.lastIdentifierFrom n i = some text) :
    (a.get? i).isSome := by
  cases n with
  | zero => cases h
  | succ n =>
    cases hget : a.get? i with
    | none => simp [lastIdentifierFrom, kindOf?, hget] at h
    | some hd => rfl

theorem lastIdentifierFrom_step
    (hbelow : ∀ j text, a.lastIdentifierFrom m j = some text → a.lastIdentifierFrom n j = some text)
    (h : a.lastIdentifierFrom (m + 1) i = some text) :
    a.lastIdentifierFrom (n + 1) i = some text := by
  unfold lastIdentifierFrom at h ⊢
  split at h
  · exact h
  · exact h
  · exact h
  · obtain ⟨d, hd, hright⟩ := Option.bind_eq_some_iff.1 h
    simpa [hd] using hbelow d.right text hright
  · obtain ⟨d, hd, hright⟩ := Option.bind_eq_some_iff.1 h
    simpa [hd] using hbelow d.right text hright
  · exact h

theorem lastIdentifierFrom_mono (hmn : m ≤ n) (h : a.lastIdentifierFrom m i = some text) :
    a.lastIdentifierFrom n i = some text := by
  induction m generalizing n i text with
  | zero => cases h
  | succ m ih =>
    obtain ⟨n, rfl⟩ : ∃ k, n = k + 1 := ⟨n - 1, by omega⟩
    exact lastIdentifierFrom_step (fun j text hj => ih (by omega) hj) h

theorem lastIdentifierFrom_unique {other : String} (h : a.lastIdentifierFrom m i = some text)
    (hother : a.lastIdentifierFrom n i = some other) : text = other := by
  have hm := lastIdentifierFrom_mono (Nat.le_max_left m n) h
  have hn := lastIdentifierFrom_mono (Nat.le_max_right m n) hother
  exact Option.some.inj (hm.symm.trans hn)

theorem lastIdentifierFrom_deepens (a : Arena) :
    a.Deepens fun depth i => a.get? i = none ∨ ∃ text, a.lastIdentifierFrom depth i = some text where
  grows := by
    rintro depth i (hget | ⟨text, h⟩)
    · exact .inl hget
    · exact .inr ⟨text, lastIdentifierFrom_mono (Nat.le_succ depth) h⟩
  outside _ _ hget := .inl hget
  step := by
    rintro m n i hbelow (hget | ⟨text, h⟩)
    · exact .inl hget
    · refine .inr ⟨text, lastIdentifierFrom_step (fun j found hj => ?_) h⟩
      obtain hget | ⟨other, hother⟩ := hbelow j (.inr ⟨found, hj⟩)
      · have hsome := get?_of_lastIdentifierFrom hj
        simp [hget] at hsome
      · rw [lastIdentifierFrom_unique hj hother, hother]

/-- The last identifier of a name is what is found at any depth. -/
theorem lastIdentifier?_eq_some_iff :
    a.lastIdentifier? i = some text ↔ ∃ depth, a.lastIdentifierFrom depth i = some text := by
  refine ⟨fun h => ⟨_, h⟩, fun ⟨depth, h⟩ => ?_⟩
  obtain hget | ⟨other, hother⟩ := a.lastIdentifierFrom_deepens.done_size (.inr ⟨text, h⟩)
  · have hsome := get?_of_lastIdentifierFrom h
    simp [hget] at hsome
  · rw [lastIdentifierFrom_unique h hother]
    exact lastIdentifierFrom_mono (Nat.le_succ a.size) hother

end LastIdentifier

section Segments
variable {i : NodeIndex}

/-- The way along the left parts of a name comes to an end. -/
inductive NameEnds (a : Arena) : NodeIndex → Prop
  | simple {i : NodeIndex} : a.qualified? i = none → NameEnds a i
  | qualified {i : NodeIndex} {d : Syntax.QualifiedName} :
      a.qualified? i = some d → NameEnds a d.left → NameEnds a i

theorem segmentsFrom_of_simple (hsimple : a.qualified? i = none) (depth : Nat) :
    a.segmentsFrom depth i = [⟨i, i⟩] := by
  cases depth with
  | zero => rfl
  | succ depth => simp [segmentsFrom, hsimple]

theorem segmentsFrom_of_qualified {d : Syntax.QualifiedName} (hd : a.qualified? i = some d)
    (depth : Nat) :
    a.segmentsFrom (depth + 1) i = a.segmentsFrom depth d.left ++ [⟨d.right, i⟩] := by
  simp [segmentsFrom, hd]

theorem qualified?_of_get? (hget : a.get? i = none) : a.qualified? i = none := by
  simp [qualified?, kindOf?, hget]

theorem segmentsFrom_deepens (a : Arena) : a.Deepens fun depth i =>
    ∀ more, a.segmentsFrom (depth + more) i = a.segmentsFrom depth i where
  grows depth i h more := by
    have hone := h 1
    have hmore := h (1 + more)
    rw [Nat.add_assoc, hmore, hone]
  outside depth i hget more := by
    have hsimple := qualified?_of_get? hget
    rw [segmentsFrom_of_simple hsimple, segmentsFrom_of_simple hsimple]
  step m n i hbelow h more := by
    cases hd : a.qualified? i with
    | none => rw [segmentsFrom_of_simple hd, segmentsFrom_of_simple hd]
    | some d =>
      have hleft : ∀ more, a.segmentsFrom (m + more) d.left = a.segmentsFrom m d.left := by
        intro more
        have hmore := h more
        rw [Nat.add_right_comm, segmentsFrom_of_qualified hd, segmentsFrom_of_qualified hd] at hmore
        exact List.append_cancel_right hmore
      rw [Nat.add_right_comm, segmentsFrom_of_qualified hd, segmentsFrom_of_qualified hd,
        hbelow d.left hleft more]

theorem NameEnds.exists_depth (h : a.NameEnds i) :
    ∃ depth, ∀ more, a.segmentsFrom (depth + more) i = a.segmentsFrom depth i := by
  induction h with
  | simple hsimple =>
    exact ⟨0, fun more => by rw [segmentsFrom_of_simple hsimple, segmentsFrom_of_simple hsimple]⟩
  | qualified hd _ ih =>
    obtain ⟨depth, hdepth⟩ := ih
    refine ⟨depth + 1, fun more => ?_⟩
    rw [Nat.add_right_comm, segmentsFrom_of_qualified hd, segmentsFrom_of_qualified hd, hdepth]

/-- A name that ends has its segments at the size of the arena, and no others at a greater depth. -/
theorem NameEnds.segmentsFrom_eq (h : a.NameEnds i) {depth : Nat} (hdepth : a.size ≤ depth) :
    a.segmentsFrom depth i = a.segments i := by
  obtain ⟨start, hstart⟩ := h.exists_depth
  have hsize := a.segmentsFrom_deepens.done_size hstart (depth - a.size)
  rwa [Nat.add_sub_cancel' hdepth] at hsize

end Segments

end DeclTree.Arena
