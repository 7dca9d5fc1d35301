import DeclTree.Proofs.Edits
import DeclTree.Proofs.LinkFields
import Mathlib.Data.List.Induction
/-!
Parent links. The parent of a node is what the latest call has added whose payload mentions the node,
among the call that has added the node and the calls after it. Where no node is used twice, the
parent of a node is the one node whose payload mentions it.
-/
namespace DeclTree.Arena

namespace Edit

/-- The payload of the call mentions an index. -/
def Mentions (i : NodeIndex) : Edit → Prop
  | node s _ _ d => s.Mentions d i
  | token _ _ | mark _ _ => False

end Edit

section Step
variable {a : Arena} {i : NodeIndex}

theorem parentOf_setParent (a : Arena) {child parent : NodeIndex}
    (hi : i.isMissing = false) (hlt : i.toNat < a.parents.size) :
    (a.setParent child parent).parentOf i = if i = child then parent else a.parentOf i := by
  unfold parentOf setParent
  by_cases hchild : child.isMissing = true
  · have hne : i ≠ child := by
      rintro rfl
      rw [hi] at hchild
      cases hchild
    rw [if_pos hchild, if_neg hne]
  · rw [if_neg hchild, if_neg (Bool.eq_false_iff.1 hi), if_neg (Bool.eq_false_iff.1 hi)]
    by_cases h : i = child
    · subst h
      simp [hlt]
    · have hne : child.toNat ≠ i.toNat := by
        intro heq
        refine h ?_
        rw [← ofNat_toNat i, ← ofNat_toNat child, heq]
      simp [h, hne]

theorem parentOf_foldl_setParent (children : NodeList) (parent : NodeIndex)
    (hi : i.isMissing = false) (hlt : i.toNat < a.parents.size) :
    (children.foldl (fun arena child => arena.setParent child parent) a).parentOf i =
      if i ∈ children then parent else a.parentOf i := by
  induction children generalizing a with
  | nil => simp
  | cons child rest ih =>
    have hsize : (a.setParent child parent).parents.size = a.parents.size :=
      parents_size_foldl_setParent a [child] parent
    rw [List.foldl_cons, ih (Nat.lt_of_lt_of_eq hlt hsize.symm), parentOf_setParent a hi hlt]
    by_cases hrest : i ∈ rest <;> by_cases hchild : i = child <;> simp [hrest, hchild]

/-- A new node has no parent, and older nodes keep theirs. -/
theorem parentOf_pushHeader (a : Arena) (h : Header) (i : NodeIndex) :
    (a.pushHeader h).parentOf i = a.parentOf i := by
  unfold parentOf pushHeader
  by_cases hi : i.toNat = a.parents.size
  · simp [hi]
  · simp [Array.getElem?_push, hi]

theorem parentOf_apply_of_not_mentions {e : Edit} (h : ¬ e.Mentions i)
    (hi : i.isMissing = false) (hlt : i.toNat < (e.apply a).parents.size) :
    (e.apply a).parentOf i = a.parentOf i := by
  cases e with
  | token kind span => exact parentOf_pushHeader a _ i
  | node s kind span d =>
    have hnot : i ∉ s.links d := fun hmem => h (Shape.mem_links_iff.1 hmem)
    have hsize := parents_size_foldl_setParent
      ({ a with pools := a.pools.push s d }.pushHeader (a.header s kind span)) (s.links d) a.next
    refine (parentOf_foldl_setParent (s.links d) a.next hi (Nat.lt_of_lt_of_eq hlt hsize)).trans ?_
    rw [if_neg hnot]
    exact parentOf_pushHeader { a with pools := a.pools.push s d } _ i
  | mark target flags =>
    change (a.addFlags target flags).parentOf i = a.parentOf i
    unfold addFlags modify
    split <;> rfl

theorem parentOf_apply_of_mentions {e : Edit} (h : e.Mentions i) (hi : i.isMissing = false)
    (hlt : i.toNat < (e.apply a).parents.size) :
    e.index? a = some ((e.apply a).parentOf i) := by
  cases e with
  | token kind span => exact h.elim
  | node s kind span d =>
    have hmem : i ∈ s.links d := Shape.mem_links_iff.2 h
    have hsize := parents_size_foldl_setParent
      ({ a with pools := a.pools.push s d }.pushHeader (a.header s kind span)) (s.links d) a.next
    refine congrArg some (Eq.symm ?_)
    have hparent :=
      parentOf_foldl_setParent (s.links d) a.next hi (Nat.lt_of_lt_of_eq hlt hsize)
    exact hparent.trans (if_pos hmem)
  | mark target flags => exact h.elim

end Step

section Run
variable {a : Arena} {edits before after : List Edit} {e : Edit} {i p : NodeIndex}

/-- What the latest of some calls on an arena has added whose payload mentions a node; missing if
there is no such call. -/
def LatestOwner (a : Arena) (edits : List Edit) (i p : NodeIndex) : Prop :=
  ((∀ e ∈ edits, ¬ e.Mentions i) ∧ p = .missing) ∨
  ∃ before e after, edits = before ++ e :: after ∧ e.Mentions i ∧
    (∀ later ∈ after, ¬ later.Mentions i) ∧ e.index? (before.foldl Edit.apply a) = some p

theorem latestOwner_nil (a : Arena) (i : NodeIndex) : LatestOwner a [] i .missing :=
  .inl ⟨by simp, rfl⟩

theorem latestOwner_concat (h : e.Mentions i)
    (hindex : e.index? (edits.foldl Edit.apply a) = some p) : LatestOwner a (edits ++ [e]) i p :=
  .inr ⟨edits, e, [], rfl, h, by simp, hindex⟩

theorem LatestOwner.concat_of_not (hlatest : LatestOwner a edits i p) (h : ¬ e.Mentions i) :
    LatestOwner a (edits ++ [e]) i p := by
  obtain ⟨hnone, hp⟩ | ⟨before, owner, after, rfl, howner, hafter, hindex⟩ := hlatest
  · refine .inl ⟨?_, hp⟩
    rw [List.forall_mem_append]
    exact ⟨hnone, by simpa using h⟩
  · refine .inr ⟨before, owner, after ++ [e], by simp, howner, ?_, hindex⟩
    rw [List.forall_mem_append]
    exact ⟨hafter, by simpa using h⟩

/-- What one more call does to the parent of a node. -/
theorem LatestOwner.concat
    (hlatest : LatestOwner a edits i ((edits.foldl Edit.apply a).parentOf i))
    (hi : i.isMissing = false)
    (hlt : i.toNat < ((edits ++ [e]).foldl Edit.apply a).parents.size) :
    LatestOwner a (edits ++ [e]) i (((edits ++ [e]).foldl Edit.apply a).parentOf i) := by
  rw [List.foldl_append, List.foldl_cons, List.foldl_nil] at hlt ⊢
  by_cases h : e.Mentions i
  · exact latestOwner_concat h (parentOf_apply_of_mentions h hi hlt)
  · rw [parentOf_apply_of_not_mentions h hi hlt]
    exact hlatest.concat_of_not h

theorem parents_size_foldl (a : Arena) (edits : List Edit) :
    (edits.foldl Edit.apply a).parents.size = a.parents.size + additions edits := by
  induction edits generalizing a with
  | nil => rfl
  | cons e edits ih =>
    rw [List.foldl_cons, ih, parents_size_apply, additions_cons e edits, Nat.add_assoc]

theorem parents_size_ofEdits (edits : List Edit) :
    (ofEdits edits).parents.size = additions edits := by
  rw [ofEdits, parents_size_foldl]
  exact Nat.zero_add _

theorem size_ofEdits (edits : List Edit) : (ofEdits edits).size = additions edits := by
  rw [ofEdits, size_foldl]
  exact Nat.zero_add _

theorem parentOf_of_size_le (h : a.parents.size ≤ i.toNat) : a.parentOf i = .missing := by
  unfold parentOf
  split
  · rfl
  · rw [Array.getElem?_eq_none h]
    rfl

/-- From the call on that adds a node, its parent is what the latest call has added that mentions
it. -/
theorem latestOwner_parentOf (hi : i.isMissing = false) (hstart : a.parents.size = i.toNat)
    (he : e.isAddition = true) (after : List Edit) :
    LatestOwner a (e :: after) i (((e :: after).foldl Edit.apply a).parentOf i) := by
  have hadded (rest : List Edit) :
      i.toNat < ((e :: rest).foldl Edit.apply a).parents.size := by
    rw [parents_size_foldl, additions_cons, additions_of_isAddition he]
    omega
  induction after using List.reverseRecOn with
  | nil =>
    have hnil : LatestOwner a [] i (([] : List Edit).foldl Edit.apply a |>.parentOf i) := by
      rw [List.foldl_nil, parentOf_of_size_le (Nat.le_of_eq hstart)]
      exact latestOwner_nil a i
    exact hnil.concat hi (hadded [])
  | append_singleton rest x ih => exact ih.concat hi (hadded (rest ++ [x]))

/-- Calls that add more than `n` nodes have one that adds a node after `n` others. -/
theorem exists_addition {n : Nat} (h : n < additions edits) :
    ∃ before e after, edits = before ++ e :: after ∧ e.isAddition = true ∧ additions before = n := by
  induction edits generalizing n with
  | nil => exact absurd h (Nat.not_lt_zero n)
  | cons e edits ih =>
    rw [additions_cons] at h
    by_cases he : e.isAddition = true
    · cases n with
      | zero => exact ⟨[], e, edits, rfl, he, rfl⟩
      | succ n =>
        rw [additions_of_isAddition he] at h
        obtain ⟨before, x, after, rfl, hx, hn⟩ := ih (n := n) (by omega)
        refine ⟨e :: before, x, after, rfl, hx, ?_⟩
        rw [additions_cons, additions_of_isAddition he, hn, Nat.add_comm]
    · have hzero : additions [e] = 0 := by simp [additions, he]
      obtain ⟨before, x, after, rfl, hx, hn⟩ := ih (n := n) (by omega)
      refine ⟨e :: before, x, after, rfl, hx, ?_⟩
      rw [additions_cons, hzero, hn, Nat.zero_add]

theorem index?_of_isAddition (he : e.isAddition = true) : e.index? a = some a.next := by
  cases e with
  | token kind span => rfl
  | node s kind span d => rfl
  | mark target flags => cases he

theorem next_ofEdits (h : additions before = i.toNat) : (ofEdits before).next = i := by
  have hsize : (ofEdits before).headers.size = i.toNat := (size_ofEdits before).trans h
  rw [next, hsize, ofNat_toNat]

theorem lt_additions_of_get? (h : ((ofEdits edits).get? i).isSome) : i.toNat < additions edits := by
  obtain ⟨hd, hget⟩ := Option.isSome_iff_exists.1 h
  exact Nat.lt_of_lt_of_eq (lt_size_of_get? hget) (size_ofEdits edits)

theorem isMissing_of_get? (h : (a.get? i).isSome) : i.isMissing = false :=
  Bool.eq_false_iff.2 fun hi => by simp [get?, hi] at h

theorem toNat_lt_of_get? (hi : (a.get? i).isSome) : i.toNat < NodeIndex.missing.toNat := by
  have hpresent := isMissing_of_get? hi
  refine Nat.lt_of_le_of_ne (Nat.le_of_lt_succ i.number.toNat_lt) fun heq => ?_
  have hmissing : i = .missing := by rw [← ofNat_toNat i, heq, ofNat_toNat]
  rw [hmissing] at hpresent
  cases hpresent

/-- Every node is there by a call, and has the parent that the calls from there on give it. -/
theorem exists_latestOwner (h : ((ofEdits edits).get? i).isSome) :
    ∃ before e after, edits = before ++ e :: after ∧ additions before = i.toNat ∧
      e.index? (ofEdits before) = some i ∧
      LatestOwner (ofEdits before) (e :: after) i ((ofEdits edits).parentOf i) := by
  obtain ⟨before, e, after, rfl, he, hbefore⟩ := exists_addition (lt_additions_of_get? h)
  refine ⟨before, e, after, rfl, hbefore, ?_, ?_⟩
  · rw [index?_of_isAddition he, next_ofEdits hbefore]
  · have hstart := (parents_size_ofEdits before).trans hbefore
    have howner := latestOwner_parentOf (isMissing_of_get? h) hstart he after
    rwa [ofEdits, ← List.foldl_append] at howner

/-- A call that adds a node at an index of its own decides on its payload, whatever calls follow. -/
theorem payload?_ofEdits_of_append
    (hadmitted : ∀ e' ∈ before ++ e :: after, e'.isAdmitted = true)
    (hi : i.toNat < NodeIndex.missing.toNat) (hbefore : additions before = i.toNat)
    (hindex : e.index? (ofEdits before) = some i) :
    (e.apply (ofEdits before)).Holds i 0 e ∧
      ∀ t, (ofEdits (before ++ e :: after)).payload? t i =
        (e.apply (ofEdits before)).payload? t i := by
  obtain ⟨hadmittedBefore, hrest⟩ := List.forall_mem_append.1 hadmitted
  obtain ⟨he, -⟩ := List.forall_mem_cons.1 hrest
  have hroom : (ofEdits before).HasRoom := by
    rw [HasRoom, size_ofEdits, hbefore]
    exact hi
  have hkept : (ofEdits before).Kept := kept_empty.foldl hadmittedBefore (by
    have hempty : ({} : Arena).size = 0 := rfl
    omega)
  have hholds := holds_of_index? hkept.stored (fun _ => hroom) he hindex
  have hstored := (hkept.apply (fun _ => hroom) he).stored
  obtain ⟨h, hget⟩ : ∃ h, (e.apply (ofEdits before)).get? i = some h := by
    cases e with
    | token kind span => exact ⟨_, hholds.1.choose_spec⟩
    | node s kind span d => exact ⟨_, hholds.1.choose_spec⟩
    | mark target flags => exact hholds.elim
  refine ⟨hholds, fun t => ?_⟩
  have hfilled : (e.apply (ofEdits before)).Filled i h := ⟨hget, fun t => hstored.slot_lt i h t hget⟩
  rw [ofEdits, List.foldl_append, List.foldl_cons]
  exact hfilled.foldl after t

/-- A payload in an arena was given by the call that has added its node. -/
theorem exists_call_of_payload? (hadmitted : ∀ e ∈ edits, e.isAdmitted = true)
    {s : Shape} {d : s.Data} (hd : (ofEdits edits).payload? s p = some d) :
    ∃ before kind span after, edits = before ++ .node s kind span d :: after ∧
      additions before = p.toNat ∧
      (Edit.node s kind span d).index? (ofEdits before) = some p := by
  have hnode := isSome_get?_of_payload? hd
  obtain ⟨before, e, after, rfl, hbefore, hindex, -⟩ := exists_latestOwner hnode
  obtain ⟨hholds, hsame⟩ :=
    payload?_ofEdits_of_append hadmitted (toNat_lt_of_get? hnode) hbefore hindex
  rw [hsame] at hd
  cases e with
  | token kind span =>
    rw [hholds.2 s] at hd
    cases hd
  | node t kind span d' =>
    obtain ⟨-, hd', hnone⟩ := hholds
    by_cases hs : s = t
    · subst hs
      obtain rfl := Option.some.inj (hd.symm.trans hd')
      exact ⟨before, kind, span, after, rfl, hbefore, hindex⟩
    · rw [hnone s hs] at hd
      cases hd
  | mark target flags => exact hholds.elim

end Run

section Once
variable {edits : List Edit} {i p : NodeIndex}

/-- The payload of a call that gave an index back mentions a node. -/
def Owns (edits : List Edit) (p i : NodeIndex) : Prop :=
  ∃ before e after, edits = before ++ e :: after ∧ e.index? (ofEdits before) = some p ∧ e.Mentions i

/-- No node is used by two calls, and every node that a call uses is there before the call. -/
structure UsedOnce (edits : List Edit) : Prop where
  once : edits.Pairwise fun e later => ∀ i, i.isPresent = true → e.Mentions i → ¬ later.Mentions i
  given : ∀ before e after, edits = before ++ e :: after → ∀ i, i.isPresent = true →
    e.Mentions i → ((ofEdits before).get? i).isSome

variable {before after : List Edit} {e : Edit}

theorem parts_of_append_cons_eq {before' after' : List Edit} {e' : Edit}
    (h : before ++ e :: after = before' ++ e' :: after') :
    (before = before' ∧ e = e' ∧ after = after') ∨
    (∃ between, before' = before ++ e :: between ∧ after = between ++ e' :: after') ∨
    ∃ between, before = before' ++ e' :: between ∧ after' = between ++ e :: after := by
  obtain ⟨rest, hbefore, hrest⟩ | ⟨rest, hbefore, hrest⟩ := List.append_eq_append_iff.1 h
  · cases rest with
    | nil =>
      cases hrest
      exact .inl ⟨by simpa using hbefore.symm, rfl, rfl⟩
    | cons x between =>
      cases hrest
      exact .inr (.inl ⟨between, hbefore, rfl⟩)
  · cases rest with
    | nil =>
      cases hrest
      exact .inl ⟨by simpa using hbefore, rfl, rfl⟩
    | cons x between =>
      cases hrest
      exact .inr (.inr ⟨between, hbefore, rfl⟩)

theorem eq_of_mentions_once {before' after' : List Edit} {e' : Edit}
    (honce : edits.Pairwise fun e later => e.Mentions i → ¬ later.Mentions i)
    (hedits : edits = before ++ e :: after) (hedits' : edits = before' ++ e' :: after')
    (he : e.Mentions i) (he' : e'.Mentions i) : before = before' ∧ e = e' := by
  obtain ⟨hbefore, heq, -⟩ | ⟨between, -, hafter⟩ | ⟨between, -, hafter⟩ :=
    parts_of_append_cons_eq (hedits.symm.trans hedits')
  · exact ⟨hbefore, heq⟩
  · rw [hedits, hafter, List.pairwise_append, List.pairwise_cons] at honce
    exact absurd he' (honce.2.1.1 e' (by simp) he)
  · rw [hedits', hafter, List.pairwise_append, List.pairwise_cons] at honce
    exact absurd he (honce.2.1.1 e (by simp) he')

/-- A node that is there before it is used, and used once, has as its parent what uses it. -/
theorem parentOf_eq_of_owns
    (honce : edits.Pairwise fun e later => e.Mentions i → ¬ later.Mentions i)
    (hgiven : ∀ before e after, edits = before ++ e :: after → e.Mentions i →
      ((ofEdits before).get? i).isSome)
    (hi : ((ofEdits edits).get? i).isSome) (howns : Owns edits p i) :
    (ofEdits edits).parentOf i = p := by
  obtain ⟨before, e, after, hedits, hbefore, -, hlatest⟩ := exists_latestOwner hi
  obtain ⟨before', e', after', hedits', hindex', he'⟩ := howns
  obtain ⟨hnone, -⟩ | ⟨between, owner, later, hsplit, howner, -, hindex⟩ := hlatest
  · -- the call that mentions the node comes after the one that has added it
    have hlt := lt_additions_of_get? (hgiven before' e' after' hedits' he')
    obtain ⟨-, rfl, -⟩ | ⟨between, -, rfl⟩ | ⟨between, rfl, -⟩ :=
      parts_of_append_cons_eq (hedits.symm.trans hedits')
    · exact absurd he' (hnone e List.mem_cons_self)
    · exact absurd he' (hnone e' (by simp))
    · rw [additions_append] at hbefore
      omega
  · have hother : edits = (before ++ between) ++ owner :: later := by
      rw [hedits, hsplit, List.append_assoc]
    obtain ⟨rfl, rfl⟩ := eq_of_mentions_once honce hother hedits' howner he'
    rw [ofEdits, List.foldl_append] at hindex'
    exact Option.some.inj (hindex.symm.trans hindex')

theorem UsedOnce.parentOf_eq_iff (h : UsedOnce edits) (hi : ((ofEdits edits).get? i).isSome)
    (hp : p.isPresent = true) : (ofEdits edits).parentOf i = p ↔ Owns edits p i := by
  have hpresent : i.isPresent = true := by simp [NodeIndex.isPresent, isMissing_of_get? hi]
  constructor
  · intro hparent
    obtain ⟨before, e, after, hedits, hbefore, -, hlatest⟩ := exists_latestOwner hi
    rw [hparent] at hlatest
    obtain ⟨-, rfl⟩ | ⟨between, owner, later, hsplit, howner, -, hindex⟩ := hlatest
    · cases hp
    · refine ⟨before ++ between, owner, later, ?_, ?_, howner⟩
      · rw [hedits, hsplit, List.append_assoc]
      · rwa [ofEdits, List.foldl_append]
  · exact parentOf_eq_of_owns (h.once.imp fun hpair => hpair i hpresent)
      (fun before e after hedits he => h.given before e after hedits i hpresent he) hi

/-- What a payload mentions is owned by its node. -/
theorem owns_of_payload? (hadmitted : ∀ e ∈ edits, e.isAdmitted = true)
    {s : Shape} {d : s.Data}
    (hd : (ofEdits edits).payload? s p = some d) (hi : s.Mentions d i) : Owns edits p i := by
  obtain ⟨before, kind, span, after, hedits, -, hindex⟩ := exists_call_of_payload? hadmitted hd
  exact ⟨before, _, after, hedits, hindex, hi⟩

/-- Where the arena keeps all payloads, a node owns what its payload mentions. -/
theorem owns_iff (hadmitted : ∀ e ∈ edits, e.isAdmitted = true)
    (hcount : additions edits < 2 ^ 32 - 1) :
    Owns edits p i ↔ ∃ s d, (ofEdits edits).payload? s p = some d ∧ s.Mentions d i := by
  have hroom : ({} : Arena).size + additions edits ≤ NodeIndex.missing.toNat := by
    have hnodes : ({} : Arena).size = 0 := rfl
    have hlast : NodeIndex.missing.toNat = 2 ^ 32 - 1 := rfl
    omega
  constructor
  · rintro ⟨before, e, after, rfl, hindex, he⟩
    have hholds := holds_of_append hadmitted hroom hindex
    cases e with
    | token kind span => exact he.elim
    | node s kind span d => exact ⟨s, d, hholds.2.1, he⟩
    | mark target flags => exact he.elim
  · rintro ⟨s, d, hd, hmention⟩
    exact owns_of_payload? hadmitted hd hmention

/-- Whom the parent links of an arena name that calls have made. -/
structure ParentsNameOwners (edits : List Edit) : Prop where
  /-- The parent of a node is what the latest call has added that mentions the node, among the call
  that has added the node and all calls after it. -/
  latest : ∀ i, ((ofEdits edits).get? i).isSome → ∃ before e after, edits = before ++ e :: after ∧
    additions before = i.toNat ∧ e.index? (ofEdits before) = some i ∧
    LatestOwner (ofEdits before) (e :: after) i ((ofEdits edits).parentOf i)
  /-- Where no node is used twice, it has the one parent that mentions it. -/
  only : UsedOnce edits → ∀ i p, ((ofEdits edits).get? i).isSome → p.isPresent = true →
    ((ofEdits edits).parentOf i = p ↔ Owns edits p i)
  /-- A node owns what the arena has in its payload. -/
  payload : (∀ e ∈ edits, e.isAdmitted = true) → additions edits < 2 ^ 32 - 1 → ∀ i p,
    (Owns edits p i ↔ ∃ s d, (ofEdits edits).payload? s p = some d ∧ s.Mentions d i)

/-- Whatever indices the calls mention, be they shared, missing, dangling or the index of the very
node that a call adds, the parent links name the latest owners. -/
theorem parentsNameOwners_ofEdits (edits : List Edit) : ParentsNameOwners edits where
  latest _ := exists_latestOwner
  only h _ _ := h.parentOf_eq_iff
  payload hadmitted hcount _ _ := owns_iff hadmitted hcount

/-- Calls for a name and for a list of names that shares a part with it, lists itself, and has an
index that is missing and one that dangles. -/
def sampleOwners : List Edit := [
  .node .identifier .identifierName ⟨0, 1⟩ (⟨"A"⟩ : Syntax.Identifier),
  .node .identifier .identifierName ⟨2, 3⟩ (⟨"B"⟩ : Syntax.Identifier),
  .node .qualifiedName .qualifiedName ⟨0, 3⟩ (⟨.ofNat 0, .ofNat 1⟩ : Syntax.QualifiedName),
  .node .composite .argumentList ⟨0, 4⟩
    (⟨[.ofNat 1, .missing, .ofNat 40, .ofNat 3]⟩ : Syntax.Composite)]

theorem sampleOwners_usedOnce : UsedOnce (sampleOwners.take 3) where
  once := by
    simp [sampleOwners, Edit.Mentions, Shape.Mentions, Shape.linkFields]
  given := by
    rintro before e after hedits i - he
    -- the first two calls mention nothing, so the call is the third
    rcases before with _ | ⟨x, _ | ⟨y, _ | ⟨z, rest⟩⟩⟩ <;>
      simp only [sampleOwners, List.take_succ_cons, List.take_zero, List.nil_append,
        List.cons_append, List.cons.injEq, List.nil_eq, List.append_eq_nil_iff, reduceCtorEq,
        and_false] at hedits
    · obtain ⟨rfl, -⟩ := hedits
      simp [Edit.Mentions, Shape.Mentions, Shape.linkFields] at he
    · obtain ⟨-, rfl, -⟩ := hedits
      simp [Edit.Mentions, Shape.Mentions, Shape.linkFields] at he
    · obtain ⟨rfl, rfl, rfl, -⟩ := hedits
      obtain rfl | rfl : i = .ofNat 0 ∨ i = .ofNat 1 := by
        simpa [Shape.links] using Shape.mem_links_iff.2 he
      · decide
      · decide

/-- The list is the parent of the part that it shares and of itself; before it was added, the
qualified name was the parent of both parts. -/
theorem sampleOwners_parentsNameOwners :
    (∀ i ∈ [NodeIndex.ofNat 1, .ofNat 3], ∃ before e after,
      sampleOwners = before ++ e :: after ∧ additions before = i.toNat ∧
        LatestOwner (ofEdits before) (e :: after) i (.ofNat 3)) ∧
    ∀ i ∈ [NodeIndex.ofNat 0, .ofNat 1], ∃ s d,
      (ofEdits (sampleOwners.take 3)).payload? s (.ofNat 2) = some d ∧ s.Mentions d i := by
  constructor
  · intro i hi
    obtain ⟨hnode, hparent⟩ : ((ofEdits sampleOwners).get? i).isSome ∧
        (ofEdits sampleOwners).parentOf i = .ofNat 3 := by
      revert i
      decide
    obtain ⟨before, e, after, hedits, hcount, -, hlatest⟩ :=
      (parentsNameOwners_ofEdits sampleOwners).latest i hnode
    exact ⟨before, e, after, hedits, hcount, hparent ▸ hlatest⟩
  · intro i hi
    obtain ⟨hnode, hparent⟩ : ((ofEdits (sampleOwners.take 3)).get? i).isSome ∧
        (ofEdits (sampleOwners.take 3)).parentOf i = .ofNat 2 := by
      revert i
      decide
    have h := parentsNameOwners_ofEdits (sampleOwners.take 3)
    have howns : Owns (sampleOwners.take 3) (.ofNat 2) i :=
      (h.only sampleOwners_usedOnce i _ hnode (by decide)).1 hparent
    exact (h.payload (by decide) (by decide) _ _).1 howns

end Once

end DeclTree.Arena
