import DeclTree.Proofs.Storage
import Mathlib.Data.Multiset.AddSub
import Mathlib.Data.Multiset.UnionInter
import Mathlib.Algebra.BigOperators.Group.List.Basic
import Mathlib.Algebra.Order.Group.Multiset
/-!
Which node is a part of which. Where a tree is composed, a node is free until it is used as a part of
another one, and is used only once, so every node is a part of one other at most.
-/
namespace DeclTree

namespace NodeIndex
variable {i : NodeIndex}

theorem isPresent_iff : i.isPresent = true ↔ i.isMissing = false := by
  simp [isPresent]

/-- The node itself, unless it was left out. -/
def ifPresent (i : NodeIndex) : Multiset NodeIndex := if i.isPresent then {i} else 0

@[simp] theorem ifPresent_missing : missing.ifPresent = 0 := rfl

theorem ifPresent_le (i : NodeIndex) : i.ifPresent ≤ {i} := by
  unfold ifPresent
  split
  · exact le_rfl
  · exact Multiset.zero_le _

theorem coe_filter_isPresent (nodes : NodeList) :
    ((nodes.filter (·.isPresent) : NodeList) : Multiset NodeIndex) =
      (nodes.map ifPresent).sum := by
  induction nodes with
  | nil => rfl
  | cons i rest ih =>
    rw [List.map_cons, List.sum_cons, ← ih, ifPresent]
    by_cases h : i.isPresent = true
    · rw [List.filter_cons_of_pos h, if_pos h]
      rfl
    · rw [List.filter_cons_of_neg h, if_neg h, zero_add]

end NodeIndex

namespace Shape

/-- How many of the links of a payload are single fields. They come first. -/
@[simp] def singles : Shape → Nat
  | .identifier | .compilationUnit | .referenceDirective | .attributeList | .composite => 0
  | .genericName | .externAlias | .attributeEntry | .namespaceDecl | .typeDecl | .enumDecl
  | .field | .typeParameter | .constraintClause | .globalStatement | .incompleteMember => 1
  | .qualifiedName | .delegate | .enumMember | .declarator | .accessor => 2
  | .parameter => 3
  | .usingDirective | .property => 4
  | .method => 6

/-- The entries of the lists of a payload. -/
@[simp] def entries (s : Shape) (d : s.Data) : NodeList := (s.links d).drop s.singles

/-- The nodes that a payload uses as parts. A single field may be left out, an entry may not. -/
def uses (s : Shape) (d : s.Data) : NodeList :=
  ((s.links d).take s.singles).filter (·.isPresent) ++ s.entries d

@[simp] theorem coe_uses (s : Shape) (d : s.Data) : (s.uses d : Multiset NodeIndex) =
    (((s.links d).take s.singles).map NodeIndex.ifPresent).sum + s.entries d := by
  rw [← NodeIndex.coe_filter_isPresent, Multiset.coe_add, uses]

/-- Only a namespace must have a certain single field, which is its name. -/
def Named : (s : Shape) → s.Data → Prop
  | .namespaceDecl, d => d.name.isPresent = true
  | _, _ => True

variable {s : Shape} {d : s.Data}

theorem mem_uses_of_mem_links {j : NodeIndex} (hj : j ∈ s.links d) (hpresent : j.isPresent = true) :
    j ∈ s.uses d := by
  rw [← List.take_append_drop s.singles (s.links d)] at hj
  obtain hj | hj := List.mem_append.1 hj
  · exact List.mem_append_left _ (List.mem_filter.2 ⟨hj, hpresent⟩)
  · exact List.mem_append_right _ hj

theorem filter_links_sublist (s : Shape) (d : s.Data) :
    ((s.links d).filter (·.isPresent)).Sublist (s.uses d) := by
  conv_lhs => rw [← List.take_append_drop s.singles (s.links d), List.filter_append]
  exact List.Sublist.append_left List.filter_sublist _

end Shape


namespace Arena
variable {a : Arena} {i : NodeIndex} {s : Shape} {kind : SyntaxKind} {span : Span} {d : s.Data}
  {free rest : Multiset NodeIndex}

theorem isPresent_of_get? (h : (a.get? i).isSome) : i.isPresent = true := by
  rw [NodeIndex.isPresent_iff]
  unfold get? at h
  split at h
  · cases h
  · exact Bool.eq_false_iff.2 ‹_›

/-- Every node is a part of one other at most, which was added after it. The free nodes are parts of
none. -/
structure Owned (a : Arena) (free : Multiset NodeIndex) : Prop where
  stored : a.Stored
  part_lt : ∀ i, ∀ j ∈ a.links i, j.isPresent = true → (a.get? j).isSome ∧ j.toNat < i.toNat
  parts_nodup : ∀ i, ((a.links i).filter (·.isPresent)).Nodup
  owner_unique : ∀ i j m, m.isPresent = true → m ∈ a.links i → m ∈ a.links j → i = j
  entry_present : ∀ i s (d : s.Data), a.payload? s i = some d → ∀ j ∈ s.entries d,
    j.isPresent = true
  named : ∀ i s (d : s.Data), a.payload? s i = some d → s.Named d
  free_nodup : free.Nodup
  free_node : ∀ i ∈ free, (a.get? i).isSome
  free_unowned : ∀ i ∈ free, ∀ j, i ∉ a.links j

namespace Owned

theorem empty : ({} : Arena).Owned 0 := by
  have hlinks (i : NodeIndex) : ({} : Arena).links i = [] := links_eq_nil_of_get? (get?_empty i)
  have hpayload (i : NodeIndex) (s : Shape) : ({} : Arena).payload? s i = none :=
    payload?_eq_none_of_get? (get?_empty i) s
  exact {
    stored := stored_empty
    part_lt := by simp [hlinks]
    parts_nodup := by simp [hlinks]
    owner_unique := by simp [hlinks]
    entry_present := by simp [hpayload]
    named := by simp [hpayload]
    free_nodup := Multiset.nodup_zero
    free_node := by simp
    free_unowned := by simp }

/-- Nodes may stay unused. -/
theorem mono (h : a.Owned free) (hle : rest ≤ free) : a.Owned rest where
  stored := h.stored
  part_lt := h.part_lt
  parts_nodup := h.parts_nodup
  owner_unique := h.owner_unique
  entry_present := h.entry_present
  named := h.named
  free_nodup := Multiset.nodup_of_le hle h.free_nodup
  free_node i hi := h.free_node i (Multiset.mem_of_le hle hi)
  free_unowned i hi := h.free_unowned i (Multiset.mem_of_le hle hi)

theorem isPresent (h : a.Owned free) (hi : i ∈ free) : i.isPresent = true :=
  isPresent_of_get? (h.free_node i hi)

theorem next_notMem_links (h : a.Owned free) (hroom : a.HasRoom) (j : NodeIndex) :
    a.next ∉ a.links j := by
  intro hmem
  have hpresent := NodeIndex.isPresent_iff.2 hroom.isMissing_next
  have hsome := (h.part_lt j a.next hmem hpresent).1
  rw [hroom.get?_next] at hsome
  cases hsome

theorem next_notMem (h : a.Owned free) (hroom : a.HasRoom) : a.next ∉ free := by
  intro hmem
  have hsome := h.free_node _ hmem
  rw [hroom.get?_next] at hsome
  cases hsome

theorem addToken (h : a.Owned free) (hroom : a.HasRoom) :
    (a.addToken kind span).2.Owned (a.next ::ₘ free) := by
  have hnext : ((a.addToken kind span).2.get? a.next).isSome := by
    rw [get?_addToken hroom, if_pos rfl]
    rfl
  exact {
    stored := h.stored.addToken hroom
    part_lt := by
      intro i j hj hpresent
      rw [links_addToken hroom] at hj
      exact (h.part_lt i j hj hpresent).imp_left (isSome_get?_addToken hroom)
    parts_nodup := by
      intro i
      rw [links_addToken hroom]
      exact h.parts_nodup i
    owner_unique := by
      intro i j m hm hi hj
      rw [links_addToken hroom] at hi hj
      exact h.owner_unique i j m hm hi hj
    entry_present := by
      intro i s d hd
      rw [payload?_addToken hroom] at hd
      exact h.entry_present i s d hd
    named := by
      intro i s d hd
      rw [payload?_addToken hroom] at hd
      exact h.named i s d hd
    free_nodup := Multiset.nodup_cons.2 ⟨h.next_notMem hroom, h.free_nodup⟩
    free_node := by
      intro i hi
      obtain rfl | hi := Multiset.mem_cons.1 hi
      · exact hnext
      · exact isSome_get?_addToken hroom (h.free_node i hi)
    free_unowned := by
      intro i hi j
      rw [links_addToken hroom]
      obtain rfl | hi := Multiset.mem_cons.1 hi
      · exact h.next_notMem_links hroom j
      · exact h.free_unowned i hi j }

/-- A new node uses its parts up and is free itself. -/
theorem add (h : a.Owned (s.uses d + rest)) (hroom : a.HasRoom) (hs : kind.shape? = some s)
    (hnamed : s.Named d) : (a.add s kind span d).2.Owned (a.next ::ₘ rest) := by
  have hrest : a.Owned rest := h.mono (Multiset.le_add_left _ _)
  obtain ⟨hnodup, -, hdisjoint⟩ := Multiset.nodup_add.1 h.free_nodup
  have huse {j : NodeIndex} (hj : j ∈ s.uses d) : j ∈ (s.uses d + rest : Multiset NodeIndex) :=
    Multiset.mem_add.2 (.inl hj)
  have hpart {j : NodeIndex} (hj : j ∈ s.links d) (hpresent : j.isPresent = true) :
      j ∈ (s.uses d + rest : Multiset NodeIndex) :=
    huse (Shape.mem_uses_of_mem_links hj hpresent)
  have hlinks (i : NodeIndex) : (a.add s kind span d).2.links i =
      if i = a.next then s.links d else a.links i := h.stored.links_add hroom hs i
  exact {
    stored := h.stored.add hroom hs
    part_lt := by
      intro i j hj hpresent
      rw [hlinks] at hj
      split at hj
      · have hnode := h.free_node j (hpart hj hpresent)
        obtain ⟨header, hget⟩ := Option.isSome_iff_exists.1 hnode
        rw [‹i = a.next›, hroom.toNat_next]
        exact ⟨isSome_get?_add hroom hnode, lt_size_of_get? hget⟩
      · exact (h.part_lt i j hj hpresent).imp_left (isSome_get?_add hroom)
    parts_nodup := by
      intro i
      rw [hlinks]
      split
      · exact hnodup.sublist (Shape.filter_links_sublist s d)
      · exact h.parts_nodup i
    owner_unique := by
      intro i j m hm hi hj
      rw [hlinks] at hi hj
      split at hi
      · split at hj
        · exact ‹i = a.next›.trans ‹j = a.next›.symm
        · exact absurd hj (h.free_unowned m (hpart hi hm) j)
      · split at hj
        · exact absurd hi (h.free_unowned m (hpart hj hm) i)
        · exact h.owner_unique i j m hm hi hj
    entry_present := by
      intro i t e he
      obtain ⟨rfl, rfl⟩ | he := h.stored.payload?_add_cases hroom hs he
      · exact fun j hj => h.isPresent (huse (List.mem_append_right _ hj))
      · exact h.entry_present i t e he
    named := by
      intro i t e he
      obtain ⟨rfl, rfl⟩ | he := h.stored.payload?_add_cases hroom hs he
      · exact hnamed
      · exact h.named i t e he
    free_nodup := Multiset.nodup_cons.2 ⟨hrest.next_notMem hroom, hrest.free_nodup⟩
    free_node := by
      intro i hi
      obtain rfl | hi := Multiset.mem_cons.1 hi
      · rw [get?_add hroom, if_pos rfl]
        rfl
      · exact isSome_get?_add hroom (hrest.free_node i hi)
    free_unowned := by
      intro i hi j hj
      rw [hlinks] at hj
      obtain rfl | hi := Multiset.mem_cons.1 hi
      · split at hj
        · exact h.next_notMem hroom (hpart hj (NodeIndex.isPresent_iff.2 hroom.isMissing_next))
        · exact h.next_notMem_links hroom j hj
      · split at hj
        · have huses := Shape.mem_uses_of_mem_links hj (hrest.isPresent hi)
          exact Multiset.disjoint_left.1 hdisjoint huses hi
        · exact hrest.free_unowned i hi j hj }

theorem addFlags (h : a.Owned free) (i : NodeIndex) (flags : NodeFlags) :
    (a.addFlags i flags).Owned free := by
  have hnode (j : NodeIndex) : ((a.addFlags i flags).get? j).isSome = (a.get? j).isSome := by
    rw [get?_addFlags, Option.isSome_map]
  exact {
    stored := h.stored.addFlags i flags
    part_lt := by simpa only [links_addFlags, hnode] using h.part_lt
    parts_nodup := by simpa only [links_addFlags] using h.parts_nodup
    owner_unique := by simpa only [links_addFlags] using h.owner_unique
    entry_present := by simpa only [payload?_addFlags] using h.entry_present
    named := by simpa only [payload?_addFlags] using h.named
    free_nodup := h.free_nodup
    free_node := by simpa only [hnode] using h.free_node
    free_unowned := by simpa only [links_addFlags] using h.free_unowned }

end Owned

end Arena

end DeclTree
