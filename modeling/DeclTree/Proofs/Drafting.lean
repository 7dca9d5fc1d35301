import DeclTree.Proofs.Ownership
import DeclTree.Syntax.Draft
import Mathlib.Algebra.BigOperators.Group.Multiset.Basic
/-!
The composition of a tree, step by step. As long as there is room before the end of the imagined
text, each node stops further on than all nodes before it, and each step uses free nodes up and gives
new ones back. Steps are combined by what they use and give.
-/
namespace DeclTree

namespace Shape

/-- Leaves have a text of their own and no parts. -/
def isLeaf : Shape → Bool
  | .identifier | .referenceDirective => true
  | _ => false

theorem named_of_isLeaf {s : Shape} {d : s.Data} (h : s.isLeaf = true) : s.Named d := by
  cases s <;> trivial

end Shape

namespace Header

/-- Tokens and nodes with a text of their own. -/
def isLeaf (h : Header) : Bool := !h.hasSlot || h.kind.shape?.any (·.isLeaf)

/-- How far the cursor moves on for a node: over a leaf and the gap after it, or by one. -/
def extent (h : Header) : Nat :=
  if h.isLeaf then (h.span.stop - h.span.start).toNat + 1 else 1

theorem extent_pos (h : Header) : 0 < h.extent := by
  unfold extent
  split <;> omega

end Header

namespace Draft
variable {draft : Draft} {α β : Type}

/-- The room that all nodes need, which is where the cursor is if it never starts from zero again. -/
def extent (draft : Draft) : Nat := (draft.arena.headers.map Header.extent).foldl Nat.add 0

/-- There is room for all nodes, so that the cursor has never passed the largest position. -/
def HasRoom (draft : Draft) : Prop := draft.extent < 2 ^ 32

section Order

/-- Nodes stop one after another, and the cursor is past them all. -/
structure Ordered (draft : Draft) : Prop where
  cursor_eq : draft.cursor.toNat = draft.extent
  size_le : draft.arena.size ≤ draft.extent
  stop_le : ∀ i h, draft.arena.get? i = some h → h.span.stop.toNat ≤ draft.cursor.toNat
  stop_lt : ∀ i j h h', draft.arena.get? i = some h → draft.arena.get? j = some h' →
    i.toNat < j.toNat → h.span.stop.toNat < h'.span.stop.toNat

theorem ordered_empty : ({} : Draft).Ordered where
  cursor_eq := by simp [extent]
  size_le := Nat.zero_le _
  stop_le := by
    intro i h hget
    rw [Arena.get?_empty] at hget
    cases hget
  stop_lt := by
    intro i j h h' hget
    rw [Arena.get?_empty] at hget
    cases hget

variable {later : Draft} {h : Header}

theorem extent_of_headers (hheaders : later.arena.headers = draft.arena.headers.push h) :
    later.extent = draft.extent + h.extent := by
  simp [extent, hheaders]

theorem extent_le_of_headers (hheaders : later.arena.headers = draft.arena.headers.push h) :
    draft.extent ≤ later.extent := by
  rw [extent_of_headers hheaders]
  exact Nat.le_add_right _ _

theorem Ordered.hasRoom (ho : draft.Ordered)
    (hheaders : later.arena.headers = draft.arena.headers.push h) (hroom : later.HasRoom) :
    draft.arena.HasRoom := by
  have hextent := extent_of_headers hheaders
  have hpos := h.extent_pos
  have hsize := ho.size_le
  have hmissing : NodeIndex.missing.toNat = 2 ^ 32 - 1 := rfl
  unfold HasRoom at hroom
  unfold Arena.HasRoom
  omega

/-- A node that stops past the cursor keeps the order. -/
theorem Ordered.push (ho : draft.Ordered)
    (hheaders : later.arena.headers = draft.arena.headers.push h) (hroom : later.HasRoom)
    (hcursor : later.cursor.toNat = draft.cursor.toNat + h.extent)
    (hlt : draft.cursor.toNat < h.span.stop.toNat)
    (hle : h.span.stop.toNat ≤ later.cursor.toNat) : later.Ordered := by
  have hextent := extent_of_headers hheaders
  have hpos := h.extent_pos
  have hsmall := ho.hasRoom hheaders hroom
  have hget := Arena.get?_of_headers hsmall hheaders
  refine ⟨?_, ?_, ?_, ?_⟩
  · rw [hcursor, hextent, ho.cursor_eq]
  · have hsize := ho.size_le
    have : later.arena.size = draft.arena.size + 1 := by
      rw [Arena.size, hheaders, Array.size_push]
      rfl
    omega
  · intro i h' hi
    rw [hget] at hi
    split at hi
    · cases hi
      exact hle
    · have := ho.stop_le i h' hi
      omega
  · intro i j h' h'' hi hj hij
    rw [hget] at hi hj
    split at hj
    · cases hj
      split at hi
      · rw [‹i = _›, ‹j = _›] at hij
        omega
      · have := ho.stop_le i h' hi
        omega
    · split at hi
      · have hlt := Arena.lt_size_of_get? hj
        rw [‹i = _›, hsmall.toNat_next] at hij
        omega
      · exact ho.stop_lt i j h' h'' hi hj hij

end Order

/-- A draft in order, with the nodes that may still be used. -/
structure Composed (draft : Draft) (free : Multiset NodeIndex) : Prop where
  owned : draft.arena.Owned free
  ordered : draft.Ordered

theorem composed_empty : ({} : Draft).Composed 0 := ⟨.empty, ordered_empty⟩

theorem Composed.mono {free rest : Multiset NodeIndex} (h : draft.Composed free) (hle : rest ≤ free) :
    draft.Composed rest :=
  ⟨h.owned.mono hle, h.ordered⟩

/-- Steps that are made of new leaves, new nodes and further flags, with the nodes that they use as
parts and those that they give back. -/
inductive Makes : {α : Type} → Multiset NodeIndex → Drafting α → (α → Multiset NodeIndex) → Prop
  | token (kind : SyntaxKind) : Makes 0 (token kind) fun i => {i}
  | leaf {s : Shape} {kind : SyntaxKind} {d : s.Data} (hs : kind.shape? = some s)
      (hleaf : s.isLeaf = true) (huses : s.uses d = []) (width : Nat) :
      Makes 0 (leaf s kind width d) fun i => {i}
  | node {s : Shape} {kind : SyntaxKind} {d : s.Data} {used : Multiset NodeIndex}
      (hs : kind.shape? = some s) (hleaf : s.isLeaf = false)
      (huses : (s.uses d : Multiset NodeIndex) ≤ used)
      (hnamed : (∀ i ∈ used, i.isPresent = true) → s.Named d) :
      Makes used (node s kind d) fun i => {i}
  | setFlags (i : NodeIndex) (flags : NodeFlags) : Makes 0 (setFlags i flags) fun _ => 0
  | pure {α : Type} (given : α → Multiset NodeIndex) (x : α) : Makes (given x) (Pure.pure x) given
  /-- The second step may use what the first one gives, and what is left over. -/
  | bind {α β : Type} {used left : Multiset NodeIndex} {step : Drafting α}
      {given : α → Multiset NodeIndex} {next : α → Drafting β} {given' : β → Multiset NodeIndex}
      (h : Makes used step given) (hnext : ∀ x, Makes (given x + left) (next x) given') :
      Makes (used + left) (step >>= next) given'
  | mono {α : Type} {used used' : Multiset NodeIndex} {step : Drafting α}
      {given given' : α → Multiset NodeIndex} (h : Makes used step given) (hused : used ≤ used')
      (hgiven : ∀ x, given' x ≤ given x) : Makes used' step given'

namespace Makes
variable {used : Multiset NodeIndex} {step : Drafting α} {given : α → Multiset NodeIndex}

theorem weaken (h : Makes used step given) {used' : Multiset NodeIndex} (hused : used ≤ used') :
    Makes used' step given :=
  h.mono hused fun _ => le_rfl

/-- The second step may use nothing but what the first one gives. -/
theorem chain {next : α → Drafting β} {given' : β → Multiset NodeIndex}
    (h : Makes used step given) (hnext : ∀ x, Makes (given x) (next x) given') :
    Makes used (step >>= next) given' := by
  have hbind := h.bind fun x => (hnext x).weaken (Multiset.le_add_right (given x) 0)
  rwa [add_zero] at hbind

/-- After a step that uses nothing, all that there was is left over. -/
theorem andThen {next : α → Drafting β} {given' : β → Multiset NodeIndex}
    {left : Multiset NodeIndex} (h : Makes 0 step given)
    (hnext : ∀ x, Makes (given x + left) (next x) given') :
    Makes left (step >>= next) given' := by
  have hbind := h.bind hnext
  rwa [zero_add] at hbind

theorem mapM {γ : Type} {f : γ → Drafting NodeIndex} (h : ∀ x, Makes 0 (f x) fun i => {i})
    (xs : List γ) : Makes 0 (xs.mapM f) fun nodes => (nodes : Multiset NodeIndex) := by
  induction xs with
  | nil => exact pure _ []
  | cons x xs ih =>
    rw [List.mapM_cons]
    refine (h x).andThen fun i => ih.andThen fun nodes => ?_
    refine (pure (fun nodes : NodeList => (nodes : Multiset NodeIndex)) _).weaken (le_of_eq ?_)
    rw [add_zero, add_comm]
    rfl

end Makes

section Primitives
variable {s : Shape} {kind : SyntaxKind} {d : s.Data}

/-- What the cursor and the range of a new node must be like. -/
structure Advances (draft later : Draft) (h : Header) : Prop where
  cursor_eq : later.cursor.toNat = draft.cursor.toNat + h.extent
  cursor_lt : draft.cursor.toNat < h.span.stop.toNat
  stop_le : h.span.stop.toNat ≤ later.cursor.toNat

/-- A step that adds one node and has room for it. -/
structure Adds (draft later : Draft) (h : Header) : Prop extends Advances draft later h where
  headers_eq : later.arena.headers = draft.arena.headers.push h
  hasRoom : draft.arena.HasRoom

theorem Adds.ordered {later : Draft} {h : Header} (hadds : Adds draft later h) (ho : draft.Ordered)
    (hroom : later.HasRoom) : later.Ordered :=
  ho.push hadds.headers_eq hroom hadds.cursor_eq hadds.cursor_lt hadds.stop_le

theorem adds_of_headers {later : Draft} {h : Header} (ho : draft.Ordered) (hroom : later.HasRoom)
    (hheaders : later.arena.headers = draft.arena.headers.push h)
    (hadvances : draft.arena.HasRoom → draft.cursor.toNat + h.extent < 2 ^ 32 →
      Advances draft later h) : Adds draft later h := by
  have hextent := extent_of_headers hheaders
  have hcursor := ho.cursor_eq
  have hsmall := ho.hasRoom hheaders hroom
  have hlt : draft.cursor.toNat + h.extent < 2 ^ 32 := by
    unfold HasRoom at hroom
    omega
  exact ⟨hadvances hsmall hlt, hheaders, hsmall⟩

theorem adds_node (hs : kind.shape? = some s) (hleaf : s.isLeaf = false)
    (hst : draft.arena.Stored) (ho : draft.Ordered)
    (hroom : ((node s kind d).run draft).2.HasRoom) :
    Adds draft ((node s kind d).run draft).2
      (draft.arena.header s kind ⟨draft.firstStart (s.links d), draft.cursor + 1⟩) := by
  refine adds_of_headers ho hroom (Arena.headers_add _ _ _ _ _) fun hsmall hlt => ?_
  have hslot : (draft.arena.header s kind
      ⟨draft.firstStart (s.links d), draft.cursor + 1⟩).hasSlot = true :=
    hst.hasSlot_header hsmall
  have hextent : (draft.arena.header s kind
      ⟨draft.firstStart (s.links d), draft.cursor + 1⟩).extent = 1 := by
    rw [Header.extent, Header.isLeaf, hslot]
    simp [Arena.header, hs, hleaf]
  rw [hextent] at hlt
  have hnext : (draft.cursor + 1).toNat = draft.cursor.toNat + 1 := by
    rw [UInt32.toNat_add]
    exact Nat.mod_eq_of_lt hlt
  refine ⟨?_, ?_, Nat.le_refl _⟩
  · rw [hextent]
    exact hnext
  · exact (Nat.lt_succ_self _).trans_eq hnext.symm

/-- The range of a leaf, and the gap after it. -/
theorem advances_leaf {later : Draft} {h : Header} {width : UInt32} (hleaf : h.isLeaf = true)
    (hspan : h.span = ⟨draft.cursor, draft.cursor + width⟩)
    (hcursor : later.cursor = draft.cursor + width + 1) (hwidth : 1 ≤ width.toNat)
    (hlt : draft.cursor.toNat + h.extent < 2 ^ 32) : Advances draft later h := by
  have hextent : h.extent = width.toNat + 1 := by
    rw [Header.extent, if_pos hleaf, hspan]
    dsimp only
    rw [UInt32.add_comm, UInt32.add_sub_cancel]
  rw [hextent] at hlt
  have hstop : (draft.cursor + width).toNat = draft.cursor.toNat + width.toNat := by
    rw [UInt32.toNat_add]
    exact Nat.mod_eq_of_lt (by omega)
  have hnext : (draft.cursor + width + 1).toNat = draft.cursor.toNat + width.toNat + 1 := by
    rw [UInt32.toNat_add, hstop]
    exact Nat.mod_eq_of_lt (by simpa [Nat.add_assoc] using hlt)
  refine ⟨?_, ?_, ?_⟩
  · rw [hcursor, hnext, hextent]
    rfl
  · rw [hspan]
    dsimp only
    omega
  · rw [hspan, hcursor]
    dsimp only
    omega

theorem one_le_width (width : Nat) : 1 ≤ (max (UInt32.ofNat width) 1).toNat := by
  change 1 ≤ (if UInt32.ofNat width ≤ 1 then 1 else UInt32.ofNat width : UInt32).toNat
  split
  · exact Nat.le_refl 1
  · have hlt : (1 : UInt32) < UInt32.ofNat width := UInt32.not_le.1 ‹_›
    have htoNat : (1 : UInt32).toNat < (UInt32.ofNat width).toNat := UInt32.lt_iff_toNat_lt.1 hlt
    exact Nat.le_of_lt htoNat

/-- The range of a leaf of a given width. -/
def leafRange (draft : Draft) (width : Nat) : Span :=
  ⟨draft.cursor, draft.cursor + max (UInt32.ofNat width) 1⟩

theorem adds_leaf (hs : kind.shape? = some s) (hleaf : s.isLeaf = true) (width : Nat)
    (ho : draft.Ordered) (hroom : ((leaf s kind width d).run draft).2.HasRoom) :
    Adds draft ((leaf s kind width d).run draft).2
      (draft.arena.header s kind (draft.leafRange width)) :=
  adds_of_headers ho hroom (Arena.headers_add _ _ _ _ _) fun _ hlt =>
    advances_leaf (by simp [Header.isLeaf, Arena.header, hs, hleaf]) rfl rfl (one_le_width width) hlt

theorem adds_token (kind : SyntaxKind) (ho : draft.Ordered)
    (hroom : ((token kind).run draft).2.HasRoom) :
    Adds draft ((token kind).run draft).2
      ⟨kind, 0, draft.leafRange ((kind.tokenText?.map String.utf8ByteSize).getD 1),
        Header.noSlot⟩ :=
  adds_of_headers ho hroom rfl fun _ hlt => advances_leaf rfl rfl rfl (one_le_width _) hlt

theorem extent_setFlags (draft : Draft) (i : NodeIndex) (flags : NodeFlags) :
    ((setFlags i flags).run draft).2.extent = draft.extent := by
  change ((draft.arena.addFlags i flags).headers.map Header.extent).foldl Nat.add 0 = _
  unfold Arena.addFlags Arena.modify
  split
  · rfl
  · have hmap : (draft.arena.headers.modify i.toNat fun h =>
        { h with flags := h.flags ||| flags }).map Header.extent =
          draft.arena.headers.map Header.extent := by
      refine Array.ext (by simp) fun n hn hn' => ?_
      rw [Array.getElem_map, Array.getElem_map, Array.getElem_modify]
      split <;> rfl
    rw [hmap]
    rfl

/-- Flags do not change where a node is. -/
theorem exists_of_get?_addFlags {a : Arena} {i j : NodeIndex} {flags : NodeFlags} {h : Header}
    (hget : (a.addFlags i flags).get? j = some h) :
    ∃ old, a.get? j = some old ∧ h.span = old.span := by
  rw [Arena.get?_addFlags] at hget
  obtain ⟨old, hold, rfl⟩ := Option.map_eq_some_iff.1 hget
  refine ⟨old, hold, ?_⟩
  split <;> rfl

theorem Ordered.setFlags (ho : draft.Ordered) (i : NodeIndex) (flags : NodeFlags) :
    ((setFlags i flags).run draft).2.Ordered where
  cursor_eq := by
    rw [extent_setFlags]
    exact ho.cursor_eq
  size_le := by
    rw [extent_setFlags]
    exact (Arena.size_addFlags _ _ _).trans_le ho.size_le
  stop_le := by
    intro j h hget
    obtain ⟨old, hold, heq⟩ := exists_of_get?_addFlags hget
    rw [heq]
    exact ho.stop_le j old hold
  stop_lt := by
    intro j k h h' hj hk hlt
    obtain ⟨old, hold, heq⟩ := exists_of_get?_addFlags hj
    obtain ⟨old', hold', heq'⟩ := exists_of_get?_addFlags hk
    rw [heq, heq']
    exact ho.stop_lt j k old old' hold hold' hlt

end Primitives

section Made
variable {used : Multiset NodeIndex} {step : Drafting α} {given : α → Multiset NodeIndex}

/-- The room that a draft needs does not get smaller. -/
theorem Makes.extent_le (h : Makes used step given) (draft : Draft) :
    draft.extent ≤ (step.run draft).2.extent := by
  induction h generalizing draft with
  | token => exact extent_le_of_headers rfl
  | leaf => exact extent_le_of_headers (Arena.headers_add _ _ _ _ _)
  | node => exact extent_le_of_headers (Arena.headers_add _ _ _ _ _)
  | setFlags i flags => exact (extent_setFlags draft i flags).ge
  | pure => exact Nat.le_refl _
  | bind _ _ ih ihnext => exact (ih draft).trans (ihnext _ _)
  | mono _ _ _ ih => exact ih draft

/-- A property of drafts and nodes that all new leaves and nodes keep, as long as there is room. -/
structure Kept (P : Draft → Multiset NodeIndex → Prop) : Prop where
  mono : ∀ {draft free rest}, P draft free → rest ≤ free → P draft rest
  token : ∀ {draft rest} (kind : SyntaxKind), P draft rest → ((token kind).run draft).2.HasRoom →
    P ((token kind).run draft).2 (((token kind).run draft).1 ::ₘ rest)
  leaf : ∀ {draft rest} {s : Shape} {kind : SyntaxKind} {d : s.Data} (width : Nat),
    kind.shape? = some s → s.isLeaf = true → s.uses d = [] → P draft rest →
    ((leaf s kind width d).run draft).2.HasRoom →
    P ((leaf s kind width d).run draft).2 (((leaf s kind width d).run draft).1 ::ₘ rest)
  node : ∀ {draft used rest} {s : Shape} {kind : SyntaxKind} {d : s.Data},
    kind.shape? = some s → s.isLeaf = false → (s.uses d : Multiset NodeIndex) ≤ used →
    ((∀ i ∈ used, i.isPresent = true) → s.Named d) → P draft (used + rest) →
    ((node s kind d).run draft).2.HasRoom →
    P ((node s kind d).run draft).2 (((node s kind d).run draft).1 ::ₘ rest)
  setFlags : ∀ {draft rest} (i : NodeIndex) (flags : NodeFlags), P draft rest →
    P ((setFlags i flags).run draft).2 rest

theorem Makes.keeps {P : Draft → Multiset NodeIndex → Prop} (hP : Kept P)
    (h : Makes used step given) {draft : Draft} {rest : Multiset NodeIndex}
    (hdraft : P draft (used + rest)) (hroom : (step.run draft).2.HasRoom) :
    P (step.run draft).2 (given (step.run draft).1 + rest) := by
  induction h generalizing draft rest with
  | token kind =>
    rw [zero_add] at hdraft
    exact hP.token kind hdraft hroom
  | leaf hs hleaf huses width =>
    rw [zero_add] at hdraft
    exact hP.leaf width hs hleaf huses hdraft hroom
  | node hs hleaf huses hnamed => exact hP.node hs hleaf huses hnamed hdraft hroom
  | setFlags i flags => exact hP.setFlags i flags hdraft
  | pure => exact hdraft
  | bind _ hnext ih ihnext =>
    have hmiddle := Nat.lt_of_le_of_lt ((hnext _).extent_le _) hroom
    rw [add_assoc] at hdraft
    have hfirst := ih hdraft hmiddle
    rw [← add_assoc] at hfirst
    exact ihnext _ hfirst hroom
  | mono _ hused hgiven ih =>
    have hfirst := ih (hP.mono hdraft (Multiset.add_le_add_right hused)) hroom
    exact hP.mono hfirst (Multiset.add_le_add_right (hgiven _))

theorem kept_composed : Kept Composed where
  mono h hle := h.mono hle
  token kind h hroom := by
    have hadds := adds_token kind h.ordered hroom
    exact ⟨h.owned.addToken hadds.hasRoom, hadds.ordered h.ordered hroom⟩
  leaf {draft rest s kind d} width hs hleaf huses h hroom := by
    have hadds := adds_leaf hs hleaf width h.ordered hroom
    refine ⟨?_, hadds.ordered h.ordered hroom⟩
    have hall : draft.arena.Owned (s.uses d + rest) := by
      rw [huses, Multiset.coe_nil, zero_add]
      exact h.owned
    exact hall.add hadds.hasRoom hs (Shape.named_of_isLeaf hleaf)
  node {draft used rest s kind d} hs hleaf huses hnamed h hroom := by
    have hadds := adds_node hs hleaf h.owned.stored h.ordered hroom
    refine ⟨?_, hadds.ordered h.ordered hroom⟩
    have hpresent : ∀ i ∈ used, i.isPresent = true := fun i hi =>
      h.owned.isPresent (Multiset.mem_add.2 (.inl hi))
    exact (h.owned.mono (Multiset.add_le_add_right huses)).add hadds.hasRoom hs (hnamed hpresent)
  setFlags i flags h := ⟨h.owned.addFlags i flags, h.ordered.setFlags i flags⟩

/-- What a step uses up of the free nodes, and what it gives back. -/
structure Turns (used : Multiset NodeIndex) (step : Drafting α)
    (given : α → Multiset NodeIndex) : Prop where
  extent_le : ∀ draft : Draft, draft.extent ≤ (step.run draft).2.extent
  composed : ∀ (draft : Draft) (rest : Multiset NodeIndex), draft.Composed (used + rest) →
    (step.run draft).2.HasRoom →
    (step.run draft).2.Composed (given (step.run draft).1 + rest)

theorem Makes.turns (h : Makes used step given) : Turns used step given where
  extent_le := h.extent_le
  composed _ _ hdraft hroom := h.keeps kept_composed hdraft hroom

end Made

end Draft

end DeclTree
