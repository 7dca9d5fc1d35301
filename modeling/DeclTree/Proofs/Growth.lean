import DeclTree.Proofs.Composition
import DeclTree.Proofs.Edits
/-!
What later calls leave as it is. Calls only ever add nodes and flags to an arena, whatever they are
given, so that each node keeps its kind and its payload, also where the arena is edited in between.
-/
namespace DeclTree

namespace Arena
variable {a b c : Arena} {i : NodeIndex} {h : Header} {s : Shape} {d : s.Data}

/-- Calls have made one arena of another. -/
def Grows (before after : Arena) : Prop := ∃ edits : List Edit, after = edits.foldl Edit.apply before

theorem PoolsFit.apply (hfit : a.PoolsFit) (e : Edit) : (e.apply a).PoolsFit := by
  cases e with
  | token kind span => exact hfit.addToken kind span
  | node s kind span d => exact hfit.add s kind span d
  | mark target flags => exact hfit.addFlags target flags

/-- A node that has a payload has a slot that is filled. -/
theorem exists_filled_of_payload? (hd : a.payload? s i = some d) : ∃ h, a.Filled i h := by
  unfold payload? at hd
  split at hd
  next h hget =>
    split at hd
    next hslot =>
      refine ⟨h, hget, fun t ht _ => ?_⟩
      obtain rfl := Option.some.inj (ht.symm.trans hslot.1)
      exact (Array.getElem?_eq_some_iff.1 hd).1
    next => cases hd
  next => cases hd

theorem Filled.exists_foldl (hi : a.Filled i h) (edits : List Edit) :
    ∃ flags, (edits.foldl Edit.apply a).Filled i { h with flags } := by
  induction edits generalizing a h with
  | nil => exact ⟨h.flags, hi⟩
  | cons e edits ih =>
    obtain ⟨⟨_, hnext⟩, -⟩ := hi.apply e
    obtain ⟨flags, hlast⟩ := ih hnext
    exact ⟨flags, hlast⟩

namespace Grows

theorem refl (a : Arena) : a.Grows a := ⟨[], rfl⟩

theorem trans (hab : a.Grows b) (hbc : b.Grows c) : a.Grows c := by
  obtain ⟨first, rfl⟩ := hab
  obtain ⟨second, rfl⟩ := hbc
  exact ⟨first ++ second, List.foldl_append.symm⟩

theorem of_edit (e : Edit) : a.Grows (e.apply a) := ⟨[e], rfl⟩

theorem size_le (h : a.Grows b) : a.size ≤ b.size := by
  obtain ⟨edits, rfl⟩ := h
  rw [size_foldl]
  exact Nat.le_add_right _ _

theorem poolsFit (h : a.Grows b) (hfit : a.PoolsFit) : b.PoolsFit := by
  obtain ⟨edits, rfl⟩ := h
  induction edits generalizing a with
  | nil => exact hfit
  | cons e edits ih => exact ih (hfit.apply e)

theorem payload? (h : a.Grows b) (hd : a.payload? s i = some d) : b.payload? s i = some d := by
  obtain ⟨edits, rfl⟩ := h
  obtain ⟨_, hi⟩ := exists_filled_of_payload? hd
  rw [hi.foldl, hd]

theorem kindOf? (h : a.Grows b) (hd : a.payload? s i = some d) : b.kindOf? i = a.kindOf? i := by
  obtain ⟨edits, rfl⟩ := h
  obtain ⟨old, hi⟩ := exists_filled_of_payload? hd
  obtain ⟨flags, hnow⟩ := hi.exists_foldl edits
  rw [Arena.kindOf?, hnow.get?, Arena.kindOf?, hi.get?, Option.map_some, Option.map_some]

end Grows

end Arena

namespace Draft
variable {α β : Type}

/-- Steps that only add to the arena. -/
def Growing (step : Drafting α) : Prop :=
  ∀ draft : Draft, draft.arena.Grows (step.run draft).2.arena

namespace Growing

theorem pure (x : α) : Growing (Pure.pure x) := fun draft => .refl draft.arena

theorem bind {step : Drafting α} {next : α → Drafting β} (h : Growing step)
    (hnext : ∀ x, Growing (next x)) : Growing (step >>= next) :=
  fun draft => (h draft).trans (hnext _ _)

theorem map {step : Drafting α} (h : Growing step) (f : α → β) : Growing (f <$> step) := by
  rw [← bind_pure_comp]
  exact h.bind fun x => .pure (f x)

theorem mapM {f : α → Drafting β} (h : ∀ x, Growing (f x)) (xs : List α) : Growing (xs.mapM f) := by
  induction xs with
  | nil => exact .pure []
  | cons x xs ih =>
    rw [List.mapM_cons]
    exact (h x).bind fun y => ih.bind fun ys => .pure (y :: ys)

theorem token (kind : SyntaxKind) : Growing (token kind) := fun draft =>
  .of_edit (.token kind (draft.leafRange ((kind.tokenText?.map String.utf8ByteSize).getD 1)))

theorem leaf (s : Shape) (kind : SyntaxKind) (width : Nat) (d : s.Data) :
    Growing (leaf s kind width d) := fun draft => .of_edit (.node s kind (draft.leafRange width) d)

theorem node (s : Shape) (kind : SyntaxKind) (d : s.Data) : Growing (node s kind d) := fun draft =>
  .of_edit (.node s kind ⟨draft.firstStart (s.links d), draft.cursor + 1⟩ d)

theorem setFlags (i : NodeIndex) (flags : NodeFlags) : Growing (setFlags i flags) := fun _ =>
  .of_edit (.mark i flags)

end Growing

theorem Makes.growing {used : Multiset NodeIndex} {step : Drafting α} {given : α → Multiset NodeIndex}
    (h : Makes used step given) : Growing step := by
  induction h with
  | token kind => exact .token kind
  | leaf => exact .leaf _ _ _ _
  | node => exact .node _ _ _
  | setFlags i flags => exact .setFlags i flags
  | pure _ x => exact .pure x
  | bind _ _ ih ihNext => exact ih.bind ihNext
  | mono _ _ _ ih => exact ih

/-- Where the kind of a node is given with the call, it need not fit the payload. -/
theorem Call.growing (call : Call) : Growing call.run := by
  cases call with
  | namespaceWith kind d => exact (Growing.node .namespaceDecl kind d).map _
  | typeWith kind d => exact (Growing.node .typeDecl kind d).map _
  | methodWith kind d => exact (Growing.node .method kind d).map _
  | propertyWith kind d => exact (Growing.node .property kind d).map _
  | composite kind inner => exact (Growing.node .composite kind _).map _
  | typeOf kind text members =>
    exact ((makes_identifier text).growing.bind fun _ => .node .typeDecl kind _).map _
  | fieldWith kind kinds names =>
    exact ((makes_modifiers kinds).growing.bind fun _ => (makes_predefinedType _).growing.bind fun _ =>
      (Growing.mapM (fun name => (makes_declarator name).growing) names).bind fun _ =>
        .node .field kind _).map _
  | _ =>
    refine Makes.growing (Call.makes _ ?_)
    exact trivial

/-- What may be done to a draft: a call, or an edit of its arena past all calls. -/
inductive Act
  | call (made : Call)
  | edit (direct : Arena.Edit)

/-- The draft after one more act. -/
def Act.apply (draft : Draft) : Act → Draft
  | .call made => (made.run.run draft).2
  | .edit direct => { draft with arena := direct.apply draft.arena }

/-- The draft after some more acts. -/
def after (draft : Draft) (acts : List Act) : Draft := acts.foldl Act.apply draft

theorem Act.grows (act : Act) (draft : Draft) : draft.arena.Grows (act.apply draft).arena := by
  cases act with
  | call made => exact made.growing draft
  | edit direct => exact .of_edit direct

theorem grows_after (draft : Draft) (acts : List Act) :
    draft.arena.Grows (draft.after acts).arena := by
  induction acts generalizing draft with
  | nil => exact .refl _
  | cons act acts ih => exact (act.grows draft).trans (ih (act.apply draft))

/-- In no draft that comes about has a pool more payloads than there are nodes. -/
theorem poolsFit_after (acts : List Act) : (({} : Draft).after acts).arena.PoolsFit :=
  (grows_after {} acts).poolsFit Arena.stored_empty.pool_le

end Draft

end DeclTree
