import DeclTree.Proofs.Descent
/-!
What it does to an arena to add a node. The new node has the index, the header and the payload that
it was added with, and all older nodes keep theirs, as long as there are fewer nodes than indices.
-/
namespace DeclTree.Arena
variable {a : Arena} {i : NodeIndex} {s t : Shape} {kind : SyntaxKind} {span : Span} {d : s.Data}

/-- No pool has more payloads than there are nodes. -/
def PoolsFit (a : Arena) : Prop := ∀ s, (a.pools.of s).size ≤ a.size

/-- Every slot names a payload in the pool of its node. -/
structure Stored (a : Arena) : Prop where
  slot_lt : ∀ i h s, a.get? i = some h → h.kind.shape? = some s → h.hasSlot →
    h.slot.toNat < (a.pools.of s).size
  pool_le : a.PoolsFit

/-- There is an index left for one more node. -/
def HasRoom (a : Arena) : Prop := a.size < NodeIndex.missing.toNat

theorem get?_empty (i : NodeIndex) : ({} : Arena).get? i = none := by
  simp [get?]

theorem stored_empty : ({} : Arena).Stored where
  slot_lt := by
    intro i h s hget
    rw [get?_empty] at hget
    cases hget
  pool_le s := by cases s <;> exact Nat.le_refl 0

theorem HasRoom.toNat_next (hroom : a.HasRoom) : a.next.toNat = a.size := by
  have hlt : a.size < UInt32.size := Nat.lt_trans hroom (by decide)
  exact UInt32.toNat_ofNat_of_lt' hlt

theorem HasRoom.isMissing_next (hroom : a.HasRoom) : a.next.isMissing = false := by
  have htoNat := hroom.toNat_next
  refine beq_false_of_ne fun hmissing => ?_
  rw [hmissing] at htoNat
  exact absurd hroom (Nat.not_lt.2 (Nat.le_of_eq htoNat))

theorem HasRoom.get?_next (hroom : a.HasRoom) : a.get? a.next = none := by
  cases hget : a.get? a.next with
  | none => rfl
  | some h =>
    have hlt := lt_size_of_get? hget
    rw [hroom.toNat_next] at hlt
    omega

theorem get?_of_headers {b : Arena} {h : Header} (hroom : a.HasRoom)
    (hb : b.headers = a.headers.push h) (i : NodeIndex) :
    b.get? i = if i = a.next then some h else a.get? i := by
  unfold get?
  rw [hb, Array.getElem?_push]
  by_cases hi : i = a.next
  · rw [hi, hroom.isMissing_next, if_neg Bool.false_ne_true, hroom.toNat_next, if_pos rfl]
    exact if_pos rfl
  · rw [if_neg hi]
    by_cases hmissing : i.isMissing = true
    · rw [if_pos hmissing, if_pos hmissing]
    · have hne : i.toNat ≠ a.headers.size := by
        intro heq
        refine hi ?_
        rw [← ofNat_toNat i, heq]
        rfl
      rw [if_neg hmissing, if_neg hmissing, if_neg hne]

section Token

theorem get?_addToken (hroom : a.HasRoom) (i : NodeIndex) :
    (a.addToken kind span).2.get? i =
      if i = a.next then some ⟨kind, 0, span, Header.noSlot⟩ else a.get? i :=
  get?_of_headers hroom rfl i

theorem isSome_get?_addToken (hroom : a.HasRoom) (hi : (a.get? i).isSome) :
    ((a.addToken kind span).2.get? i).isSome := by
  rw [get?_addToken hroom]
  split
  · rfl
  · exact hi

theorem payload?_addToken (hroom : a.HasRoom) (t : Shape) (i : NodeIndex) :
    (a.addToken kind span).2.payload? t i = a.payload? t i := by
  unfold payload?
  rw [get?_addToken hroom]
  by_cases hi : i = a.next
  · rw [if_pos hi, hi, hroom.get?_next]
    simp [Header.hasSlot]
  · rw [if_neg hi]
    rfl

end Token

/-- The header that a node with a payload is added with. -/
def header (a : Arena) (s : Shape) (kind : SyntaxKind) (span : Span) : Header :=
  ⟨kind, 0, span, UInt32.ofNat (a.pools.of s).size⟩

/-- Parent links are all that setting parents changes. -/
theorem foldl_setParent_eq (a : Arena) (children : NodeList) (parent : NodeIndex) :
    ∃ parents, children.foldl (fun arena child => arena.setParent child parent) a =
      { a with parents } := by
  induction children generalizing a with
  | nil => exact ⟨a.parents, rfl⟩
  | cons child rest ih =>
    obtain ⟨parents, heq⟩ := ih (a.setParent child parent)
    refine ⟨parents, heq.trans ?_⟩
    unfold setParent
    split <;> rfl

theorem headers_add (a : Arena) (s : Shape) (kind : SyntaxKind) (span : Span) (d : s.Data) :
    (a.add s kind span d).2.headers = a.headers.push (a.header s kind span) := by
  obtain ⟨parents, heq⟩ := foldl_setParent_eq
    ({ a with pools := a.pools.push s d }.pushHeader (a.header s kind span)) (s.links d) a.next
  exact congrArg Arena.headers heq

theorem pools_add (a : Arena) (s : Shape) (kind : SyntaxKind) (span : Span) (d : s.Data) :
    (a.add s kind span d).2.pools = a.pools.push s d := by
  obtain ⟨parents, heq⟩ := foldl_setParent_eq
    ({ a with pools := a.pools.push s d }.pushHeader (a.header s kind span)) (s.links d) a.next
  exact congrArg Arena.pools heq

theorem size_add (a : Arena) (s : Shape) (kind : SyntaxKind) (span : Span) (d : s.Data) :
    (a.add s kind span d).2.size = a.size + 1 := by
  rw [size, headers_add, Array.size_push]
  rfl

theorem get?_add (hroom : a.HasRoom) (i : NodeIndex) :
    (a.add s kind span d).2.get? i =
      if i = a.next then some (a.header s kind span) else a.get? i :=
  get?_of_headers hroom (headers_add a s kind span d) i

theorem isSome_get?_add (hroom : a.HasRoom) (hi : (a.get? i).isSome) :
    ((a.add s kind span d).2.get? i).isSome := by
  rw [get?_add hroom]
  split
  · rfl
  · exact hi

section PoolsFit
variable (hfit : a.PoolsFit) (hroom : a.HasRoom)
include hfit hroom

theorem PoolsFit.slot_header : (a.header s kind span).slot.toNat = (a.pools.of s).size :=
  UInt32.toNat_ofNat_of_lt' (Nat.lt_of_le_of_lt (hfit s) (Nat.lt_trans hroom (by decide)))

theorem PoolsFit.hasSlot_header : (a.header s kind span).hasSlot = true := by
  have hslot : (a.header s kind span).slot.toNat = (a.pools.of s).size := hfit.slot_header hroom
  refine bne_iff_ne.2 fun hnone => ?_
  rw [hnone] at hslot
  exact absurd (Nat.lt_of_le_of_lt (hfit s) hroom) (Nat.not_lt.2 (Nat.le_of_eq hslot))

/-- A new node has the payload that it was added with. -/
theorem PoolsFit.payload?_add_next (hs : kind.shape? = some s) :
    (a.add s kind span d).2.payload? s a.next = some d := by
  unfold payload?
  rw [get?_add hroom, if_pos rfl, pools_add, Pools.of_push_self]
  dsimp only
  rw [if_pos ⟨hs, hfit.hasSlot_header hroom⟩, hfit.slot_header hroom, Array.getElem?_push_size]

end PoolsFit

theorem Stored.slot_header (hst : a.Stored) (hroom : a.HasRoom) :
    (a.header s kind span).slot.toNat = (a.pools.of s).size :=
  hst.pool_le.slot_header hroom

theorem Stored.hasSlot_header (hst : a.Stored) (hroom : a.HasRoom) :
    (a.header s kind span).hasSlot = true :=
  hst.pool_le.hasSlot_header hroom

theorem Stored.payload?_add_next (hst : a.Stored) (hroom : a.HasRoom)
    (hs : kind.shape? = some s) : (a.add s kind span d).2.payload? s a.next = some d :=
  hst.pool_le.payload?_add_next hroom hs

/-- An older node keeps its payload. -/
theorem Stored.payload?_add_of_ne (hst : a.Stored) (hroom : a.HasRoom) (t : Shape)
    (hi : i ≠ a.next) : (a.add s kind span d).2.payload? t i = a.payload? t i := by
  unfold payload?
  rw [get?_add hroom, if_neg hi, pools_add]
  cases hget : a.get? i with
  | none => rfl
  | some h =>
    dsimp only
    split
    · rename_i hslot
      by_cases ht : t = s
      · subst ht
        have hlt := hst.slot_lt i h t hget hslot.1 hslot.2
        rw [Pools.of_push_self, Array.getElem?_push_lt hlt, Array.getElem?_eq_getElem hlt]
      · rw [Pools.of_push_of_ne _ _ ht]
    · rfl

theorem kindOf?_add_of_ne (hroom : a.HasRoom) (hi : i ≠ a.next) :
    (a.add s kind span d).2.kindOf? i = a.kindOf? i := by
  rw [kindOf?, get?_add hroom, if_neg hi, kindOf?]

theorem Stored.links_add (hst : a.Stored) (hroom : a.HasRoom) (hs : kind.shape? = some s)
    (i : NodeIndex) :
    (a.add s kind span d).2.links i = if i = a.next then s.links d else a.links i := by
  by_cases hi : i = a.next
  · rw [if_pos hi, hi, links_of_payload? (hst.payload?_add_next hroom hs)]
  · rw [if_neg hi]
    unfold links
    rw [kindOf?_add_of_ne hroom hi]
    split
    · rw [hst.payload?_add_of_ne hroom _ hi]
    · rfl

/-- Every payload is the new one or an older one. -/
theorem Stored.payload?_add_cases (hst : a.Stored) (hroom : a.HasRoom)
    (hs : kind.shape? = some s) {e : t.Data}
    (he : (a.add s kind span d).2.payload? t i = some e) :
    (∃ ht : t = s, ht ▸ e = d) ∨ a.payload? t i = some e := by
  by_cases hi : i = a.next
  · rw [hi] at he
    have hd : (a.add s kind span d).2.payload? s a.next = some d :=
      hst.payload?_add_next hroom hs
    by_cases ht : t = s
    · subst ht
      rw [hd] at he
      exact .inl ⟨rfl, (Option.some.inj he).symm⟩
    · rw [payload?_eq_none_of_ne hd ht] at he
      cases he
  · rw [hst.payload?_add_of_ne hroom t hi] at he
    exact .inr he

theorem links_addToken (hroom : a.HasRoom) (i : NodeIndex) :
    (a.addToken kind span).2.links i = a.links i := by
  by_cases hi : i = a.next
  · rw [hi, links_eq_nil_of_get? hroom.get?_next]
    unfold links
    split
    · rw [payload?_addToken hroom, payload?_eq_none_of_get? hroom.get?_next]
      rfl
    · rfl
  · unfold links kindOf?
    rw [get?_addToken hroom, if_neg hi]
    split
    · rw [payload?_addToken hroom]
    · rfl

theorem PoolsFit.addToken (hfit : a.PoolsFit) (kind : SyntaxKind) (span : Span) :
    (a.addToken kind span).2.PoolsFit := by
  intro t
  have hle := hfit t
  have hsize : (a.addToken kind span).2.size = a.size + 1 := Array.size_push _
  rw [hsize]
  exact Nat.le_succ_of_le hle

theorem Stored.addToken (hst : a.Stored) (hroom : a.HasRoom) :
    (a.addToken kind span).2.Stored where
  slot_lt := by
    intro i h t hget
    rw [get?_addToken hroom] at hget
    split at hget
    · cases hget
      simp [Header.hasSlot]
    · exact hst.slot_lt i h t hget
  pool_le := hst.pool_le.addToken kind span

theorem size_of_push_le (p : Pools) (s t : Shape) (d : s.Data) :
    (p.of t).size ≤ ((p.push s d).of t).size ∧
      ((p.push s d).of t).size ≤ (p.of t).size + 1 := by
  by_cases ht : t = s
  · subst ht
    rw [Pools.of_push_self, Array.size_push]
    omega
  · rw [Pools.of_push_of_ne _ _ ht]
    omega

/-- A payload comes with a node, so that the nodes stay as many as the payloads of any pool. -/
theorem PoolsFit.add (hfit : a.PoolsFit) (s : Shape) (kind : SyntaxKind) (span : Span) (d : s.Data) :
    (a.add s kind span d).2.PoolsFit := by
  intro t
  have hle := hfit t
  have hpush := (size_of_push_le a.pools s t d).2
  rw [pools_add, size_add]
  omega

theorem Stored.add (hst : a.Stored) (hroom : a.HasRoom) (hs : kind.shape? = some s) :
    (a.add s kind span d).2.Stored where
  slot_lt := by
    intro i h t hget ht hslot
    rw [pools_add]
    rw [get?_add hroom] at hget
    split at hget
    · cases hget
      obtain rfl : s = t := Option.some.inj (hs.symm.trans ht)
      rw [hst.slot_header hroom, Pools.of_push_self, Array.size_push]
      exact Nat.lt_succ_self _
    · exact Nat.lt_of_lt_of_le (hst.slot_lt i h t hget ht hslot) (size_of_push_le _ s t d).1
  pool_le := hst.pool_le.add s kind span d

section Flags
variable {flags : NodeFlags}

/-- Further flags change one header, and in it nothing but the flags. -/
theorem get?_addFlags (a : Arena) (i : NodeIndex) (flags : NodeFlags) (j : NodeIndex) :
    (a.addFlags i flags).get? j = (a.get? j).map fun h =>
      if j = i then { h with flags := h.flags ||| flags } else h := by
  unfold addFlags modify
  by_cases hmissing : i.isMissing = true
  · rw [if_pos hmissing]
    by_cases hj : j = i
    · simp [get?, hj, hmissing]
    · simp [hj]
  · rw [if_neg hmissing]
    unfold get?
    by_cases hj : j = i
    · simp [hj, hmissing, Array.getElem?_modify]
    · have hne : i.toNat ≠ j.toNat := by
        intro heq
        refine hj ?_
        rw [← ofNat_toNat i, ← ofNat_toNat j, heq]
      simp [hj, hne, Array.getElem?_modify]

theorem pools_addFlags (a : Arena) (i : NodeIndex) (flags : NodeFlags) :
    (a.addFlags i flags).pools = a.pools := by
  unfold addFlags modify
  split <;> rfl

theorem size_addFlags (a : Arena) (i : NodeIndex) (flags : NodeFlags) :
    (a.addFlags i flags).size = a.size := by
  unfold addFlags modify
  split
  · rfl
  · exact Array.size_modify

theorem payload?_addFlags (a : Arena) (i : NodeIndex) (flags : NodeFlags) (t : Shape)
    (j : NodeIndex) : (a.addFlags i flags).payload? t j = a.payload? t j := by
  unfold payload?
  rw [get?_addFlags, pools_addFlags]
  cases a.get? j with
  | none => rfl
  | some h =>
    by_cases hj : j = i
    · simp [hj, Header.hasSlot]
    · simp [hj]

theorem links_addFlags (a : Arena) (i : NodeIndex) (flags : NodeFlags) (j : NodeIndex) :
    (a.addFlags i flags).links j = a.links j := by
  have hkind : (a.addFlags i flags).kindOf? j = a.kindOf? j := by
    rw [kindOf?, get?_addFlags, Option.map_map, kindOf?]
    congr 1
    funext h
    dsimp only [Function.comp_apply]
    split <;> rfl
  unfold links
  rw [hkind]
  split
  · rw [payload?_addFlags]
  · rfl

theorem PoolsFit.addFlags (hfit : a.PoolsFit) (i : NodeIndex) (flags : NodeFlags) :
    (a.addFlags i flags).PoolsFit := by
  intro t
  rw [pools_addFlags, size_addFlags]
  exact hfit t

theorem Stored.addFlags (hst : a.Stored) (i : NodeIndex) (flags : NodeFlags) :
    (a.addFlags i flags).Stored where
  slot_lt := by
    intro j h t hget ht hslot
    rw [pools_addFlags]
    rw [get?_addFlags] at hget
    obtain ⟨old, hold, rfl⟩ := Option.map_eq_some_iff.1 hget
    have hlt := hst.slot_lt j old t hold
    by_cases hj : j = i
    · rw [if_pos hj] at ht hslot ⊢
      exact hlt ht hslot
    · rw [if_neg hj] at ht hslot ⊢
      exact hlt ht hslot
  pool_le := hst.pool_le.addFlags i flags

end Flags

end DeclTree.Arena
