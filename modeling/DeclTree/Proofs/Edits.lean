import DeclTree.Proofs.Storage
import Mathlib.Algebra.Ring.Nat
/-!
Arenas as they are made from nothing, call by call. A call that adds a node gives it an index, and
from then on the index leads to the kind, range and payload of that call and to the flags that were
added since, whatever else is done to the arena.
-/
namespace DeclTree

namespace Shape

/-- Whether a node of the kind may be added with a payload of the shape. -/
def admits (s : Shape) (k : SyntaxKind) : Bool :=
  match s with
  | .identifier => k ∈ [.identifierToken, .identifierName, .predefinedType]
  | .genericName => k = .genericName
  | .qualifiedName => k ∈ [.qualifiedName, .aliasQualifiedName]
  | .compilationUnit => k = .compilationUnit
  | .externAlias => k = .externAliasDirective
  | .usingDirective => k = .usingDirective
  | .referenceDirective => k = .referenceDirectiveTrivia
  | .attributeList => k = .attributeList
  | .attributeEntry => k = .attributeEntry
  | .namespaceDecl => k.isNamespace
  | .typeDecl => k.isClassLike
  | .delegate => k = .delegateDeclaration
  | .enumDecl => k = .enumDeclaration
  | .enumMember => k = .enumMemberDeclaration
  | .field => k ∈ [.fieldDeclaration, .eventFieldDeclaration]
  | .declarator => k = .variableDeclarator
  | .method => k ∈ [.methodDeclaration, .operatorDeclaration, .conversionOperatorDeclaration,
      .constructorDeclaration, .destructorDeclaration]
  | .property => k ∈ [.propertyDeclaration, .eventDeclaration, .indexerDeclaration]
  | .accessor => k = .accessorDeclaration
  | .parameter => k = .parameter
  | .typeParameter => k = .typeParameter
  | .constraintClause => k = .typeParameterConstraintClause
  | .globalStatement => k = .globalStatement
  | .incompleteMember => k = .incompleteMember
  | .composite => k.isComposite

/-- What may be added with a shape is what is read with it. -/
theorem admits_iff (s : Shape) (k : SyntaxKind) : s.admits k = true ↔ k.shape? = some s := by
  have hall : ∀ s ∈ all, ∀ k ∈ SyntaxKind.all, (s.admits k = true ↔ k.shape? = some s) := by
    decide +kernel
  exact hall s (mem_all s) k (SyntaxKind.mem_all k)

end Shape

namespace Arena

/-- A call that changes an arena. -/
inductive Edit
  | token (kind : SyntaxKind) (span : Span)
  | node (s : Shape) (kind : SyntaxKind) (span : Span) (d : s.Data)
  | mark (target : NodeIndex) (flags : NodeFlags)

namespace Edit

/-- The index that a call gives back. -/
def index? (a : Arena) : Edit → Option NodeIndex
  | token kind span => some (a.addToken kind span).1
  | node s kind span d => some (a.add s kind span d).1
  | mark _ _ => none

def apply (a : Arena) : Edit → Arena
  | token kind span => (a.addToken kind span).2
  | node s kind span d => (a.add s kind span d).2
  | mark target flags => a.addFlags target flags

/-- Whether the kind of a node goes with its payload. -/
def isAdmitted : Edit → Bool
  | node s kind _ _ => s.admits kind
  | token _ _ | mark _ _ => true

def isAddition : Edit → Bool
  | token _ _ | node _ _ _ _ => true
  | mark _ _ => false

/-- The flags that a call adds to a node. -/
def flagsFor (i : NodeIndex) : Edit → NodeFlags
  | mark target flags => if i = target then flags else 0
  | token _ _ | node _ _ _ _ => 0

end Edit

/-- The number of nodes that some calls add. -/
def additions (edits : List Edit) : Nat := edits.countP (·.isAddition)

/-- The arena that some calls make from nothing. -/
def ofEdits (edits : List Edit) : Arena := edits.foldl Edit.apply {}

/-- The flags that some calls add to a node, all together. -/
def flagsAdded (i : NodeIndex) (edits : List Edit) : NodeFlags :=
  edits.foldl (fun flags e => flags ||| e.flagsFor i) 0

/-- An index leads to the node that a call adds, with some flags. -/
def Holds (a : Arena) (i : NodeIndex) (flags : NodeFlags) : Edit → Prop
  | .token kind span =>
    (∃ slot, a.get? i = some ⟨kind, flags, span, slot⟩) ∧ ∀ t, a.payload? t i = none
  | .node s kind span d =>
    (∃ slot, a.get? i = some ⟨kind, flags, span, slot⟩) ∧ a.payload? s i = some d ∧
      ∀ t, t ≠ s → a.payload? t i = none
  | .mark _ _ => False

/-- What every call keeps. -/
structure Kept (a : Arena) : Prop where
  stored : a.Stored
  unshared : ∀ s i j h h', a.get? i = some h → a.get? j = some h' → h.kind.shape? = some s →
    h'.kind.shape? = some s → h.hasSlot = true → h'.hasSlot = true → h.slot = h'.slot → i = j
  parents_size : a.parents.size = a.size

theorem kept_empty : ({} : Arena).Kept where
  stored := stored_empty
  unshared := by
    intro s i j h h' hget
    rw [get?_empty] at hget
    cases hget
  parents_size := rfl

section Step
variable {a : Arena} {e : Edit} {i : NodeIndex} {h : Header}

theorem HasRoom.ne_next (hroom : a.HasRoom) (hget : a.get? i = some h) : i ≠ a.next := by
  rintro rfl
  rw [hroom.get?_next] at hget
  cases hget

theorem size_apply (a : Arena) (e : Edit) :
    (e.apply a).size = a.size + additions [e] := by
  cases e with
  | token kind span => exact Array.size_push _
  | node s kind span d => exact size_add a s kind span d
  | mark target flags => exact size_addFlags a target flags

theorem parents_size_foldl_setParent (a : Arena) (children : NodeList) (parent : NodeIndex) :
    (children.foldl (fun arena child => arena.setParent child parent) a).parents.size =
      a.parents.size := by
  induction children generalizing a with
  | nil => rfl
  | cons child rest ih =>
    rw [List.foldl_cons, ih]
    unfold setParent
    split
    · rfl
    · exact Array.size_setIfInBounds

theorem parents_size_apply (a : Arena) (e : Edit) :
    (e.apply a).parents.size = a.parents.size + additions [e] := by
  cases e with
  | token kind span => exact Array.size_push _
  | node s kind span d =>
    refine (parents_size_foldl_setParent _ _ _).trans ?_
    exact Array.size_push _
  | mark target flags =>
    change (a.addFlags target flags).parents.size = a.parents.size
    unfold addFlags modify
    split <;> rfl

/-- A call leaves an older node as it is, but for flags that it adds. -/
theorem get?_apply (hroom : e.isAddition = true → a.HasRoom) (hget : a.get? i = some h) :
    (e.apply a).get? i = some { h with flags := h.flags ||| e.flagsFor i } := by
  cases e with
  | token kind span =>
    rw [Edit.apply, get?_addToken (hroom rfl), if_neg ((hroom rfl).ne_next hget), hget]
    simp [Edit.flagsFor]
  | node s kind span d =>
    rw [Edit.apply, get?_add (hroom rfl), if_neg ((hroom rfl).ne_next hget), hget]
    simp [Edit.flagsFor]
  | mark target flags =>
    rw [Edit.apply, get?_addFlags, hget, Option.map_some, Edit.flagsFor]
    split <;> simp

theorem Stored.payload?_apply (hst : a.Stored) (hroom : e.isAddition = true → a.HasRoom)
    (hget : a.get? i = some h) (t : Shape) : (e.apply a).payload? t i = a.payload? t i := by
  cases e with
  | token kind span => exact payload?_addToken (hroom rfl) t i
  | node s kind span d => exact hst.payload?_add_of_ne (hroom rfl) t ((hroom rfl).ne_next hget)
  | mark target flags => exact payload?_addFlags a target flags t i

/-- A node that a call has added is left as it is by the next call. -/
theorem Holds.apply {flags : NodeFlags} {added : Edit} (hholds : a.Holds i flags added)
    (hst : a.Stored) (hroom : e.isAddition = true → a.HasRoom) :
    (e.apply a).Holds i (flags ||| e.flagsFor i) added := by
  cases added with
  | token kind span =>
    obtain ⟨⟨slot, hget⟩, hnone⟩ := hholds
    refine ⟨⟨slot, get?_apply hroom hget⟩, fun t => ?_⟩
    rw [hst.payload?_apply hroom hget, hnone]
  | node s kind span d =>
    obtain ⟨⟨slot, hget⟩, hd, hnone⟩ := hholds
    refine ⟨⟨slot, get?_apply hroom hget⟩, ?_, fun t ht => ?_⟩
    · rw [hst.payload?_apply hroom hget, hd]
    · rw [hst.payload?_apply hroom hget, hnone t ht]
  | mark target flags => exact hholds

/-- A call that adds a node has added it at the index that it gives back. -/
theorem holds_of_index? (hst : a.Stored) (hroom : e.isAddition = true → a.HasRoom)
    (hadmitted : e.isAdmitted = true) (hindex : e.index? a = some i) : (e.apply a).Holds i 0 e := by
  cases e with
  | token kind span =>
    cases hindex
    refine ⟨⟨Header.noSlot, ?_⟩, fun t => ?_⟩
    · exact (get?_addToken (hroom rfl) a.next).trans (if_pos rfl)
    · exact (payload?_addToken (hroom rfl) t a.next).trans
        (payload?_eq_none_of_get? (hroom rfl).get?_next t)
  | node s kind span d =>
    cases hindex
    have hs : kind.shape? = some s := (s.admits_iff kind).1 hadmitted
    have hd : (a.add s kind span d).2.payload? s a.next = some d :=
      hst.payload?_add_next (hroom rfl) hs
    refine ⟨⟨_, (get?_add (hroom rfl) a.next).trans (if_pos rfl)⟩, hd, fun t ht => ?_⟩
    exact payload?_eq_none_of_ne hd ht
  | mark target flags => cases hindex

/-- A node that is there after a call was there before it but for its flags, or the call has added
it. -/
theorem get?_of_apply (hroom : e.isAddition = true → a.HasRoom)
    (hget : (e.apply a).get? i = some h) :
    (∃ old flags, a.get? i = some old ∧ h = { old with flags }) ∨
    (i = a.next ∧ (h.slot = Header.noSlot ∨
      ∃ s kind span d, e = .node s kind span d ∧ h = a.header s kind span)) := by
  cases e with
  | token kind span =>
    rw [Edit.apply, get?_addToken (hroom rfl)] at hget
    split at hget
    next hi =>
      cases hget
      exact .inr ⟨hi, .inl rfl⟩
    next => exact .inl ⟨h, h.flags, hget, rfl⟩
  | node s kind span d =>
    rw [Edit.apply, get?_add (hroom rfl)] at hget
    split at hget
    next hi =>
      cases hget
      exact .inr ⟨hi, .inr ⟨s, kind, span, d, rfl, rfl⟩⟩
    next => exact .inl ⟨h, h.flags, hget, rfl⟩
  | mark target flags =>
    rw [Edit.apply, get?_addFlags] at hget
    obtain ⟨old, hold, rfl⟩ := Option.map_eq_some_iff.1 hget
    split
    · exact .inl ⟨old, old.flags ||| flags, hold, rfl⟩
    · exact .inl ⟨old, old.flags, hold, rfl⟩

/-- The payload of a new node has a place that no older node has. -/
theorem Kept.slot_ne_of_new (hkept : a.Kept) (hroom : e.isAddition = true → a.HasRoom)
    (hadmitted : e.isAdmitted = true) {s : Shape} {new old : Header}
    (hnew : new.slot = Header.noSlot ∨
      ∃ s kind span d, e = .node s kind span d ∧ new = a.header s kind span)
    (hold : a.get? i = some old) (hkind : new.kind.shape? = some s)
    (hkind' : old.kind.shape? = some s) (hslot : new.hasSlot = true)
    (hslot' : old.hasSlot = true) : new.slot ≠ old.slot := by
  intro hsame
  obtain hnone | ⟨t, kind, span, d, rfl, rfl⟩ := hnew
  · simp [Header.hasSlot, hnone] at hslot
  · have hs : kind.shape? = some t := (t.admits_iff kind).1 hadmitted
    obtain rfl : t = s := Option.some.inj (hs.symm.trans hkind)
    have hlt := hkept.stored.slot_lt i old t hold hkind' hslot'
    have hsize : (a.header t kind span).slot.toNat = (a.pools.of t).size :=
      hkept.stored.slot_header (hroom rfl)
    rw [hsame] at hsize
    omega

theorem Kept.apply (hkept : a.Kept) (hroom : e.isAddition = true → a.HasRoom)
    (hadmitted : e.isAdmitted = true) : (e.apply a).Kept where
  stored := by
    cases e with
    | token kind span => exact hkept.stored.addToken (hroom rfl)
    | node s kind span d =>
      exact hkept.stored.add (hroom rfl) ((s.admits_iff kind).1 hadmitted)
    | mark target flags => exact hkept.stored.addFlags target flags
  unshared := by
    intro s i j h h' hi hj hkind hkind' hslot hslot' hsame
    -- Two old nodes have places of their own already; a new one has a place past the pool.
    obtain ⟨old, flags, hold, rfl⟩ | ⟨rfl, hnew⟩ := get?_of_apply hroom hi
    · obtain ⟨old', flags', hold', rfl⟩ | ⟨rfl, hnew'⟩ := get?_of_apply hroom hj
      · exact hkept.unshared s i j old old' hold hold' hkind hkind' hslot hslot' hsame
      · have hne : h'.slot ≠ old.slot :=
          hkept.slot_ne_of_new hroom hadmitted hnew' hold hkind' hkind hslot' hslot
        exact absurd hsame.symm hne
    · obtain ⟨old', flags', hold', rfl⟩ | ⟨rfl, -⟩ := get?_of_apply hroom hj
      · have hne : h.slot ≠ old'.slot :=
          hkept.slot_ne_of_new hroom hadmitted hnew hold' hkind hkind' hslot hslot'
        exact absurd hsame hne
      · rfl
  parents_size := by rw [parents_size_apply, size_apply, hkept.parents_size]

end Step

section Run
variable {a : Arena} {i : NodeIndex} {edits : List Edit}

theorem additions_append (before after : List Edit) :
    additions (before ++ after) = additions before + additions after := List.countP_append

theorem additions_cons (e : Edit) (edits : List Edit) :
    additions (e :: edits) = additions [e] + additions edits := additions_append [e] edits

theorem additions_of_isAddition {e : Edit} (h : e.isAddition = true) : additions [e] = 1 := by
  simp [additions, h]

/-- There is room for some calls if there is room for all nodes that they add. -/
theorem hasRoom_of_additions {e : Edit}
    (hcount : a.size + additions (e :: edits) ≤ NodeIndex.missing.toNat)
    (hadds : e.isAddition = true) : a.HasRoom := by
  rw [additions_cons, additions_of_isAddition hadds] at hcount
  unfold HasRoom
  omega

theorem size_apply_add (a : Arena) (e : Edit) (edits : List Edit) :
    (e.apply a).size + additions edits = a.size + additions (e :: edits) := by
  rw [size_apply, Nat.add_assoc, ← additions_cons]

theorem size_foldl (a : Arena) (edits : List Edit) :
    (edits.foldl Edit.apply a).size = a.size + additions edits := by
  induction edits generalizing a with
  | nil => rfl
  | cons e edits ih => rw [List.foldl_cons, ih, size_apply_add]

theorem Kept.foldl (hkept : a.Kept) (hadmitted : ∀ e ∈ edits, e.isAdmitted = true)
    (hcount : a.size + additions edits ≤ NodeIndex.missing.toNat) :
    (edits.foldl Edit.apply a).Kept := by
  induction edits generalizing a with
  | nil => exact hkept
  | cons e edits ih =>
    have hstep := hkept.apply (hasRoom_of_additions hcount) (hadmitted e List.mem_cons_self)
    refine ih hstep (fun e he => hadmitted e (List.mem_cons_of_mem _ he)) ?_
    rwa [size_apply_add]

/-- What an index leads to stays there through any calls. -/
theorem Holds.foldl {flags : NodeFlags} {added : Edit} (hholds : a.Holds i flags added)
    (hkept : a.Kept) (hadmitted : ∀ e ∈ edits, e.isAdmitted = true)
    (hcount : a.size + additions edits ≤ NodeIndex.missing.toNat) :
    (edits.foldl Edit.apply a).Holds i
      (edits.foldl (fun flags e => flags ||| e.flagsFor i) flags) added := by
  induction edits generalizing a flags with
  | nil => exact hholds
  | cons e edits ih =>
    have hroom : e.isAddition = true → a.HasRoom := hasRoom_of_additions hcount
    have hstep := hkept.apply hroom (hadmitted e List.mem_cons_self)
    refine ih (hholds.apply hkept.stored hroom) hstep
      (fun e he => hadmitted e (List.mem_cons_of_mem _ he)) ?_
    rwa [size_apply_add]

end Run

section Keeping
variable {a : Arena} {i : NodeIndex} {h : Header}

/-- A header of an index, with a slot that is filled if the kind of the node has payloads. -/
structure Filled (a : Arena) (i : NodeIndex) (h : Header) : Prop where
  get? : a.get? i = some h
  slot_lt : ∀ s, h.kind.shape? = some s → h.hasSlot = true → h.slot.toNat < (a.pools.of s).size

theorem get?_of_headers_push {b : Arena} {new : Header} (hb : b.headers = a.headers.push new)
    (hget : a.get? i = some h) : b.get? i = some h := by
  have hlt := lt_size_of_get? hget
  unfold get? at hget ⊢
  rw [hb, Array.getElem?_push_lt hlt]
  rwa [Array.getElem?_eq_getElem hlt] at hget

/-- What a slot leads to stays there when a pool grows. -/
theorem Filled.getElem?_push (hi : a.Filled i h) {s t : Shape} (d : s.Data)
    (ht : h.kind.shape? = some t) (hslot : h.hasSlot = true) :
    ((a.pools.push s d).of t)[h.slot.toNat]? = (a.pools.of t)[h.slot.toNat]? := by
  by_cases hs : t = s
  · subst hs
    have hlt := hi.slot_lt t ht hslot
    rw [Pools.of_push_self, Array.getElem?_push_lt hlt, Array.getElem?_eq_getElem hlt]
  · rw [Pools.of_push_of_ne _ _ hs]

/-- No call takes a payload away from a node or gives it another one, even if there is no index left
for a new node. -/
theorem Filled.apply (hi : a.Filled i h) (e : Edit) :
    (∃ flags, (e.apply a).Filled i { h with flags }) ∧
      ∀ t, (e.apply a).payload? t i = a.payload? t i := by
  cases e with
  | token kind span =>
    have hget : (Edit.apply a (.token kind span)).get? i = some h :=
      get?_of_headers_push rfl hi.get?
    refine ⟨⟨h.flags, hget, hi.slot_lt⟩, fun t => ?_⟩
    rw [payload?, hget, payload?, hi.get?]
    rfl
  | node s kind span d =>
    have hget : (Edit.apply a (.node s kind span d)).get? i = some h :=
      get?_of_headers_push (headers_add a s kind span d) hi.get?
    have hpools : (Edit.apply a (.node s kind span d)).pools = a.pools.push s d :=
      pools_add a s kind span d
    refine ⟨⟨h.flags, hget, fun t ht hslot => ?_⟩, fun t => ?_⟩
    · rw [hpools]
      exact Nat.lt_of_lt_of_le (hi.slot_lt t ht hslot) (size_of_push_le a.pools s t d).1
    · rw [payload?, hget, payload?, hi.get?, hpools]
      dsimp only
      split
      · rename_i hslot
        exact hi.getElem?_push d hslot.1 hslot.2
      · rfl
  | mark target flags =>
    have hpools : (Edit.apply a (.mark target flags)).pools = a.pools :=
      pools_addFlags a target flags
    refine ⟨?_, fun t => payload?_addFlags a target flags t i⟩
    have hget := get?_addFlags a target flags i
    rw [hi.get?, Option.map_some] at hget
    by_cases htarget : i = target
    · rw [if_pos htarget] at hget
      exact ⟨h.flags ||| flags, hget, by rw [hpools]; exact hi.slot_lt⟩
    · rw [if_neg htarget] at hget
      exact ⟨h.flags, hget, by rw [hpools]; exact hi.slot_lt⟩

theorem Filled.foldl (hi : a.Filled i h) (edits : List Edit) (t : Shape) :
    (edits.foldl Edit.apply a).payload? t i = a.payload? t i := by
  induction edits generalizing a h with
  | nil => rfl
  | cons e edits ih =>
    obtain ⟨⟨flags, hnext⟩, hsame⟩ := hi.apply e
    rw [List.foldl_cons, ih hnext, hsame]

end Keeping

/-- An arena stores what the calls that have made it say. -/
structure Faithful (edits : List Edit) : Prop where
  sizes : (ofEdits edits).headers.size = additions edits ∧
    (ofEdits edits).parents.size = additions edits
  /-- Each node is there as it was added, with the flags that it was given afterwards. -/
  nodes : ∀ before e after i, edits = before ++ e :: after → e.index? (ofEdits before) = some i →
    (ofEdits edits).Holds i (flagsAdded i after) e
  /-- No two nodes have the same entry of a pool for their payload. -/
  unshared : ∀ s i j h h', (ofEdits edits).get? i = some h → (ofEdits edits).get? j = some h' →
    h.kind.shape? = some s → h'.kind.shape? = some s → h.hasSlot = true → h'.hasSlot = true →
    h.slot = h'.slot → i = j

/-- A node that is added in between is there in the end. -/
theorem holds_of_append {before after : List Edit} {e : Edit} {i : NodeIndex}
    (hadmitted : ∀ e' ∈ before ++ e :: after, e'.isAdmitted = true)
    (hcount : ({} : Arena).size + additions (before ++ e :: after) ≤ NodeIndex.missing.toNat)
    (hindex : e.index? (ofEdits before) = some i) :
    (ofEdits (before ++ e :: after)).Holds i (flagsAdded i after) e := by
  obtain ⟨hbefore, hrest⟩ := List.forall_mem_append.1 hadmitted
  obtain ⟨he, hafter⟩ := List.forall_mem_cons.1 hrest
  rw [additions_append, ← Nat.add_assoc] at hcount
  have hkept : (ofEdits before).Kept := kept_empty.foldl hbefore (by omega)
  rw [← size_foldl] at hcount
  have hroom : e.isAddition = true → (ofEdits before).HasRoom := hasRoom_of_additions hcount
  rw [ofEdits, List.foldl_append, List.foldl_cons]
  refine (holds_of_index? hkept.stored hroom he hindex).foldl (hkept.apply hroom he) hafter ?_
  rwa [size_apply_add]

/-- As long as there are fewer nodes than indices, nothing that was stored is lost or changed. -/
theorem faithful_ofEdits (edits : List Edit) (hadmitted : ∀ e ∈ edits, e.isAdmitted = true)
    (hcount : additions edits < 2 ^ 32 - 1) : Faithful edits := by
  have hroom : ({} : Arena).size + additions edits ≤ NodeIndex.missing.toNat := by
    have hnodes : ({} : Arena).size = 0 := rfl
    have hlast : NodeIndex.missing.toNat = 2 ^ 32 - 1 := rfl
    omega
  have hkept : (ofEdits edits).Kept := kept_empty.foldl hadmitted hroom
  have hsize : (ofEdits edits).size = additions edits := by
    rw [ofEdits, size_foldl]
    exact Nat.zero_add _
  refine ⟨⟨hsize, hkept.parents_size.trans hsize⟩, ?_, hkept.unshared⟩
  rintro before e after i rfl hindex
  exact holds_of_append hadmitted hroom hindex

/-- Calls for a name, a keyword with the kind of a name, and flags for both and for a node that is
added later. -/
def sampleEdits : List Edit := [
  .node .identifier .identifierName ⟨0, 1⟩ (⟨"A"⟩ : Syntax.Identifier),
  .mark (.ofNat 0) 1,
  .mark (.ofNat 2) 4,
  .token .identifierName ⟨2, 3⟩,
  .node .qualifiedName .qualifiedName ⟨0, 3⟩ (⟨.ofNat 0, .ofNat 1⟩ : Syntax.QualifiedName),
  .mark (.ofNat 0) 2]

theorem sampleEdits_faithful : (∀ e ∈ sampleEdits, e.isAdmitted = true) ∧
    additions sampleEdits < 2 ^ 32 - 1 ∧
    (ofEdits sampleEdits).Holds (.ofNat 0) 3
      (.node .identifier .identifierName ⟨0, 1⟩ (⟨"A"⟩ : Syntax.Identifier)) := by
  have hadmitted : ∀ e ∈ sampleEdits, e.isAdmitted = true := by
    decide
  have hcount : additions sampleEdits < 2 ^ 32 - 1 := by decide
  exact ⟨hadmitted, hcount, (faithful_ofEdits sampleEdits hadmitted hcount).nodes [] _ _ _ rfl rfl⟩

end Arena

end DeclTree
