import DeclTree.Proofs.DistinctReports
import DeclTree.Proofs.LinkFields
/-!
The ranges of nodes that calls have composed. Each node stops further on than all older nodes, and
covers its parts and some more, no matter how many nodes a part is shared by. So no two nodes have the
same range.
-/
namespace DeclTree.Draft
variable {draft later : Draft} {known rest : Multiset NodeIndex}

/-- Every node starts before it stops, and around its parts. The known nodes are there. -/
structure Nested (draft : Draft) (known : Multiset NodeIndex) : Prop where
  stored : draft.arena.Stored
  ordered : draft.Ordered
  start_lt : ∀ i h, draft.arena.get? i = some h → h.span.start.toNat < h.span.stop.toNat
  part : ∀ i h, draft.arena.get? i = some h → ∀ j ∈ draft.arena.links i, j.isPresent = true →
    ∃ h', draft.arena.get? j = some h' ∧ h.span.start.toNat ≤ h'.span.start.toNat ∧
      h'.span.stop.toNat < h.span.stop.toNat
  known_node : ∀ i ∈ known, i.isPresent = true → (draft.arena.get? i).isSome

theorem nested_empty : ({} : Draft).Nested 0 where
  stored := Arena.stored_empty
  ordered := ordered_empty
  start_lt i h hget := by
    rw [Arena.get?_empty] at hget
    cases hget
  part i h hget := by
    rw [Arena.get?_empty] at hget
    cases hget
  known_node i hi := absurd hi (Multiset.notMem_zero i)

theorem Nested.withKnown (h : draft.Nested known)
    (hrest : ∀ i ∈ rest, i.isPresent = true → (draft.arena.get? i).isSome) : draft.Nested rest where
  stored := h.stored
  ordered := h.ordered
  start_lt := h.start_lt
  part := h.part
  known_node := hrest

section Starts

theorem foldl_min_start_le (hs : List Header) (start : UInt32) :
    (hs.foldl (fun start h => min start h.span.start) start).toNat ≤ start.toNat ∧
      ∀ h ∈ hs, (hs.foldl (fun start h => min start h.span.start) start).toNat ≤
        h.span.start.toNat := by
  induction hs generalizing start with
  | nil => simp
  | cons h hs ih =>
    have hmin : (min start h.span.start).toNat = min start.toNat h.span.start.toNat := by
      change (if start ≤ h.span.start then start else h.span.start).toNat = _
      by_cases hle : start ≤ h.span.start
      · rw [if_pos hle, Nat.min_eq_left (UInt32.le_iff_toNat_le.1 hle)]
      · rw [if_neg hle, Nat.min_eq_right (Nat.le_of_not_le (mt UInt32.le_iff_toNat_le.2 hle))]
    obtain ⟨hstart, hrest⟩ := ih (min start h.span.start)
    rw [hmin] at hstart
    refine ⟨by rw [List.foldl_cons]; omega, ?_⟩
    intro h' hh'
    rw [List.foldl_cons]
    obtain rfl | hh' := List.mem_cons.1 hh'
    · omega
    · exact hrest h' hh'

/-- What covers some nodes starts before each of them. -/
theorem firstStart_le {children : NodeList} {j : NodeIndex} {h : Header} (hj : j ∈ children)
    (hget : draft.arena.get? j = some h) :
    (draft.firstStart children).toNat ≤ h.span.start.toNat := by
  have hmem : h ∈ children.filterMap draft.arena.get? := List.mem_filterMap.2 ⟨j, hj, hget⟩
  unfold firstStart
  split
  · rename_i hnil
    rw [hnil] at hmem
    cases hmem
  · rename_i first others hcons
    rw [hcons] at hmem
    obtain ⟨hfirst, hothers⟩ := foldl_min_start_le others first.span.start
    obtain rfl | hmem := List.mem_cons.1 hmem
    · exact hfirst
    · exact hothers h hmem

theorem Nested.firstStart_le_cursor (hn : draft.Nested known) (children : NodeList) :
    (draft.firstStart children).toNat ≤ draft.cursor.toNat := by
  cases hnodes : children.filterMap draft.arena.get? with
  | nil =>
    rw [firstStart, hnodes]
  | cons h others =>
    have hmem : h ∈ children.filterMap draft.arena.get? := hnodes ▸ List.mem_cons_self
    obtain ⟨j, hj, hget⟩ := List.mem_filterMap.1 hmem
    have hle := firstStart_le hj hget
    have hlt := hn.start_lt j h hget
    have hstop := hn.ordered.stop_le j h hget
    omega

end Starts

section Steps
variable {s : Shape} {kind : SyntaxKind} {d : s.Data} {h : Header}

/-- A new node keeps the ranges nested if it starts before its parts. -/
theorem Nested.push {links : NodeList} (hn : draft.Nested known) (hadds : Adds draft later h)
    (hroom : later.HasRoom) (hst : later.arena.Stored)
    (hlinks : ∀ i, later.arena.links i =
      if i = draft.arena.next then links else draft.arena.links i)
    (hstart : h.span.start.toNat ≤ draft.cursor.toNat)
    (hparts : ∀ j ∈ links, j.isPresent = true → ∃ h', draft.arena.get? j = some h' ∧
      h.span.start.toNat ≤ h'.span.start.toNat) :
    later.Nested (draft.arena.next ::ₘ known) := by
  have hget := Arena.get?_of_headers hadds.hasRoom hadds.headers_eq
  have hstop := hadds.cursor_lt
  have hkept {i : NodeIndex} {hd : Header} (hi : draft.arena.get? i = some hd) :
      later.arena.get? i = some hd := by
    rw [hget, if_neg, hi]
    rintro rfl
    rw [hadds.hasRoom.get?_next] at hi
    cases hi
  refine ⟨hst, hadds.ordered hn.ordered hroom, ?_, ?_, ?_⟩
  · intro i hd hi
    rw [hget] at hi
    split at hi
    · cases hi
      omega
    · exact hn.start_lt i hd hi
  · intro i hd hi j hj hpresent
    rw [hlinks] at hj
    rw [hget] at hi
    split at hi
    · rw [if_pos ‹_›] at hj
      cases hi
      obtain ⟨h', hh', hle⟩ := hparts j hj hpresent
      have hold := hn.ordered.stop_le j h' hh'
      exact ⟨h', hkept hh', hle, by omega⟩
    · rw [if_neg ‹_›] at hj
      obtain ⟨h', hh', hle⟩ := hn.part i hd hi j hj hpresent
      exact ⟨h', hkept hh', hle⟩
  · intro i hi hpresent
    obtain rfl | hi := Multiset.mem_cons.1 hi
    · rw [hget, if_pos rfl]
      rfl
    · obtain ⟨hd, hhd⟩ := Option.isSome_iff_exists.1 (hn.known_node i hi hpresent)
      rw [hkept hhd]
      rfl

theorem Nested.addToken (kind : SyntaxKind) (hn : draft.Nested known)
    (hroom : ((token kind).run draft).2.HasRoom) :
    ((token kind).run draft).2.Nested (((token kind).run draft).1 ::ₘ known) := by
  have hadds := adds_token kind hn.ordered hroom
  have hlinks (i : NodeIndex) : ((token kind).run draft).2.arena.links i =
      if i = draft.arena.next then [] else draft.arena.links i := by
    refine (Arena.links_addToken hadds.hasRoom i).trans ?_
    split
    · rw [‹i = _›, Arena.links_eq_nil_of_get? hadds.hasRoom.get?_next]
    · rfl
  have hpush := hn.push hadds hroom (hn.stored.addToken hadds.hasRoom) hlinks (Nat.le_refl _)
    (by simp)
  exact hpush

theorem Nested.addLeaf (hs : kind.shape? = some s) (hleaf : s.isLeaf = true) (huses : s.uses d = [])
    (width : Nat) (hn : draft.Nested known)
    (hroom : ((leaf s kind width d).run draft).2.HasRoom) :
    ((leaf s kind width d).run draft).2.Nested (((leaf s kind width d).run draft).1 ::ₘ known) := by
  have hadds := adds_leaf (d := d) hs hleaf width hn.ordered hroom
  have hpush := hn.push hadds hroom (hn.stored.add hadds.hasRoom hs)
    (hn.stored.links_add hadds.hasRoom hs) (Nat.le_refl _)
  refine hpush fun j hj hpresent => ?_
  have huse := Shape.mem_uses_of_mem_links hj hpresent
  rw [huses] at huse
  cases huse

/-- A node may have any older nodes for its parts. -/
theorem Nested.addNode (hs : kind.shape? = some s) (hleaf : s.isLeaf = false)
    (huses : ∀ j ∈ s.links d, j.isPresent = true → (draft.arena.get? j).isSome)
    (hn : draft.Nested known) (hroom : ((node s kind d).run draft).2.HasRoom) :
    ((node s kind d).run draft).2.Nested (((node s kind d).run draft).1 ::ₘ known) := by
  have hadds := adds_node hs hleaf hn.stored hn.ordered hroom
  have hpush := hn.push hadds hroom (hn.stored.add hadds.hasRoom hs)
    (hn.stored.links_add hadds.hasRoom hs) (hn.firstStart_le_cursor _)
  refine hpush fun j hj hpresent => ?_
  obtain ⟨h', hh'⟩ := Option.isSome_iff_exists.1 (huses j hj hpresent)
  exact ⟨h', hh', firstStart_le hj hh'⟩

theorem Nested.addFlags (hn : draft.Nested known) (i : NodeIndex) (flags : NodeFlags) :
    ((setFlags i flags).run draft).2.Nested known where
  stored := hn.stored.addFlags i flags
  ordered := hn.ordered.setFlags i flags
  start_lt j h hget := by
    obtain ⟨old, hold, heq⟩ := exists_of_get?_addFlags hget
    rw [heq]
    exact hn.start_lt j old hold
  part j h hget k hk hpresent := by
    obtain ⟨old, hold, heq⟩ := exists_of_get?_addFlags hget
    have hlink : k ∈ draft.arena.links j := Arena.links_addFlags draft.arena i flags j ▸ hk
    obtain ⟨h', hh', hle⟩ := hn.part j old hold k hlink hpresent
    refine ⟨_, (Arena.get?_addFlags draft.arena i flags k).trans (congrArg _ hh'), ?_⟩
    rw [heq]
    split <;> exact hle
  known_node j hj hpresent := by
    have hnode := hn.known_node j hj hpresent
    change ((draft.arena.addFlags i flags).get? j).isSome
    rwa [Arena.get?_addFlags, Option.isSome_map]

theorem kept_nested : Kept Nested where
  mono h hle := h.withKnown fun i hi => h.known_node i (Multiset.mem_of_le hle hi)
  token kind h hroom := h.addToken kind hroom
  leaf width hs hleaf huses h hroom := h.addLeaf hs hleaf huses width hroom
  node hs hleaf huses _ h hroom := by
    have hall := h.withKnown fun i hi => h.known_node i (Multiset.mem_add.2 (.inr hi))
    refine hall.addNode hs hleaf (fun j hj hpresent => h.known_node j ?_ hpresent) hroom
    have huse := Shape.mem_uses_of_mem_links hj hpresent
    exact Multiset.mem_add.2 (.inl (Multiset.mem_of_le huses huse))
  setFlags i flags h := h.addFlags i flags

end Steps

section Runs
variable {calls : List Call}

theorem Call.mem_children_of_mem_uses {call : Call} {i : NodeIndex} (hi : i ∈ call.uses) :
    i ∈ call.children := by
  obtain hi | hi := List.mem_append.1 hi
  · exact List.mem_of_mem_take (List.mem_filter.1 hi).1
  · exact List.mem_of_mem_drop hi

theorem Nested.run {call : Call} (hfits : call.Fits) (hn : draft.Nested known)
    (hchildren : ∀ i ∈ call.children, i.isPresent = true → (draft.arena.get? i).isSome)
    (hroom : (call.run.run draft).2.HasRoom) :
    (call.run.run draft).2.Nested ((call.run.run draft).1.nodes + known) := by
  obtain hallowed | ⟨kind, d, rfl, hs⟩ := hfits.cases
  · refine (call.makes hallowed).keeps kept_nested (hn.withKnown fun i hi hpresent => ?_) hroom
    obtain hi | hi := Multiset.mem_add.1 hi
    · exact hchildren i (Call.mem_children_of_mem_uses hi) hpresent
    · exact hn.known_node i hi hpresent
  · exact hn.addNode hs rfl hchildren hroom

/-- Calls whose children are missing or were given back by calls before them. A node may be a child
any number of times. -/
structure Refers (calls : List Call) : Prop where
  fits : ∀ call ∈ calls, call.Fits
  given : ∀ (n : Nat) (hn : n < calls.length), ∀ i ∈ calls[n].children, i.isPresent = true →
    i ∈ givenBack (calls.take n)
  room : (ofCalls calls).HasRoom

theorem Refers.nested_take (h : Refers calls) {n : Nat} (hn : n ≤ calls.length) :
    (ofCalls (calls.take n)).Nested (givenBack (calls.take n)) := by
  induction n with
  | zero => exact nested_empty
  | succ n ih =>
    have hnested := ih (Nat.le_of_succ_le hn)
    have htake : calls.take (n + 1) = calls.take n ++ [calls[n]] :=
      List.take_succ_eq_append_getElem hn
    have hroom : (ofCalls (calls.take (n + 1))).HasRoom := by
      have hle := extent_ofCalls_le (calls.take (n + 1)) (calls.drop (n + 1)) fun call hcall =>
        h.fits call (List.mem_of_mem_drop hcall)
      rw [List.take_append_drop] at hle
      exact Nat.lt_of_le_of_lt hle h.room
    rw [htake, ofCalls_concat] at hroom
    have hrun := hnested.run (h.fits _ (List.getElem_mem hn))
      (fun i hi hpresent => hnested.known_node i (h.given n hn i hi hpresent) hpresent) hroom
    rw [htake, ofCalls_concat, givenBack_concat, ← Multiset.coe_add, add_comm]
    exact hrun

theorem Refers.nested (h : Refers calls) : (ofCalls calls).Nested (givenBack calls) := by
  have hall := h.nested_take (Nat.le_refl _)
  rwa [List.take_length] at hall

/-- How the ranges lie of the nodes that calls have composed. -/
structure SpansNest (calls : List Call) : Prop where
  stop_lt : ∀ i j h h', (ofCalls calls).arena.get? i = some h →
    (ofCalls calls).arena.get? j = some h' → i.toNat < j.toNat → h.span.stop < h'.span.stop
  start_lt : ∀ i h, (ofCalls calls).arena.get? i = some h → h.span.start < h.span.stop
  /-- A node starts no later than its parts, and stops after them. -/
  covers : ∀ i h (s : Shape) (d : s.Data), (ofCalls calls).arena.get? i = some h →
    (ofCalls calls).arena.payload? s i = some d → ∀ j, s.Mentions d j → j.isPresent = true →
    ∃ h', (ofCalls calls).arena.get? j = some h' ∧ h.span.start ≤ h'.span.start ∧
      h'.span.stop < h.span.stop
  eq_of_span : ∀ i j h h', (ofCalls calls).arena.get? i = some h →
    (ofCalls calls).arena.get? j = some h' → h.span = h'.span → i = j
  eq_of_location : ∀ id fileName options root i j, ((ofCalls calls).arena.get? i).isSome →
    ((ofCalls calls).arena.get? j).isSome →
    (treeOf calls id fileName options root).location i =
      (treeOf calls id fileName options root).location j → i = j

/-- The ranges of nodes nest, and no two nodes have the same range, in all that calls compose. -/
theorem Refers.spansNest (h : Refers calls) : SpansNest calls where
  stop_lt i j hd hd' hi hj hlt :=
    UInt32.lt_iff_toNat_lt.2 (h.nested.ordered.stop_lt i j hd hd' hi hj hlt)
  start_lt i hd hi := UInt32.lt_iff_toNat_lt.2 (h.nested.start_lt i hd hi)
  covers i hd s d hi hpayload j hmention hpresent := by
    have hlink : j ∈ (ofCalls calls).arena.links i := by
      rw [Arena.links_of_payload? hpayload]
      exact Shape.mem_links_iff.2 hmention
    obtain ⟨hd', hj, hstart, hstop⟩ := h.nested.part i hd hi j hlink hpresent
    exact ⟨hd', hj, UInt32.le_iff_toNat_le.2 hstart, UInt32.lt_iff_toNat_lt.2 hstop⟩
  eq_of_span i j hd hd' hi hj hspan := h.nested.ordered.eq_of_span hi hj hspan
  eq_of_location id fileName options root i j hi hj hlocation := by
    obtain ⟨hd, hi⟩ := Option.isSome_iff_exists.1 hi
    obtain ⟨hd', hj⟩ := Option.isSome_iff_exists.1 hj
    have hspan := congrArg Location.span hlocation
    simp only [SyntaxTree.location, SyntaxTree.spanOf, treeOf, hi, hj, Option.map_some,
      Option.getD_some] at hspan
    exact h.nested.ordered.eq_of_span hi hj hspan

/-- Blocks that share a statement, one of them twice, in a namespace without a name. -/
def sampleSharing : List Call := [
  .callStatement "f",
  .composite .block [.ofNat 3, .missing, .ofNat 3],
  .composite .block [.ofNat 3],
  .namespaceWith .namespaceDeclaration { members := [.ofNat 4, .ofNat 5, .ofNat 3] }]

theorem sampleSharing_refers : Refers sampleSharing where
  fits := by
    simp only [sampleSharing, List.forall_mem_cons]
    exact ⟨trivial, rfl, rfl, rfl, by simp⟩
  given := by decide +kernel
  room := by
    unfold HasRoom
    decide +kernel

theorem sampleSharing_spansNest : SpansNest sampleSharing ∧
    (ofCalls sampleSharing).arena.headers.toList.map (·.span) =
      [⟨0, 1⟩, ⟨2, 3⟩, ⟨0, 4⟩, ⟨0, 5⟩, ⟨0, 6⟩, ⟨0, 7⟩, ⟨0, 8⟩] :=
  ⟨sampleSharing_refers.spansNest, by decide +kernel⟩

end Runs

end DeclTree.Draft
