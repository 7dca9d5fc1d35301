import DeclTree.Proofs.Budget
import DeclTree.Proofs.FirstFault
import DeclTree.Proofs.NameParts
import DeclTree.Proofs.Settlement
import Mathlib.Logic.Hydra
/-!
Why the walks over an arena come to an end where links lead to lower indices. No walk notes the
nodes that it has visited, so a shared node is pushed again and again, and a stack may grow in every
round. What goes down is the multiset of the pending entries: each round takes one of them away and
puts only lower ones in its place.
-/
namespace DeclTree

section TopReplaced
variable {α : Type} {r : α → α → Prop}

/-- Lower entries, any number of them, take the place of the first one. -/
def TopReplaced (r : α → α → Prop) (after before : List α) : Prop :=
  ∃ top new rest, before = top :: rest ∧ after = new ++ rest ∧ ∀ x ∈ new, r x top

theorem wellFounded_topReplaced (hr : WellFounded r) : WellFounded (TopReplaced r) := by
  have hmultiset :
      WellFounded (InvImage (Relation.CutExpand r) fun s : List α => (s : Multiset α)) :=
    InvImage.wf _ hr.cutExpand
  refine Subrelation.wf ?_ hmultiset
  rintro after before ⟨top, new, rest, rfl, rfl, hnew⟩
  refine ⟨(new : Multiset α), top, fun x hx => hnew x hx, ?_⟩
  -- Both sides have the top entry once more, since multisets have no subtraction here.
  have hperm : (new ++ rest ++ [top]).Perm (top :: rest ++ new) :=
    (List.perm_append_singleton top _).trans (.cons top List.perm_append_comm)
  exact Multiset.coe_eq_coe.2 hperm

end TopReplaced

namespace Walk
variable {next : NodeIndex → NodeList} {m n : Nat} {stack visits : NodeList}

/-- One round of a walk: the nodes that follow the one on top take its place. -/
def Round (next : NodeIndex → NodeList) (after before : NodeList) : Prop :=
  ∃ i rest, before = i :: rest ∧ after = next i ++ rest

theorem Lowers.wellFounded_round {rank : NodeIndex → Nat} (h : Lowers next rank) :
    WellFounded (Round next) := by
  refine Subrelation.wf ?_ (wellFounded_topReplaced (InvImage.wf rank Nat.lt_wfRel.wf))
  rintro after before ⟨i, rest, rfl, rfl⟩
  exact ⟨i, next i, rest, rfl, rfl, fun j hj => h i j hj⟩

theorem exists_visited? (h : WellFounded (Round next)) (stack : NodeList) :
    ∃ n visits, visited? next n stack = some visits := by
  induction stack using h.induction with
  | _ stack ih =>
    cases stack with
    | nil => exact ⟨0, [], rfl⟩
    | cons i rest =>
      obtain ⟨n, visits, hvisits⟩ := ih (next i ++ rest) ⟨i, rest, rfl, rfl⟩
      exact ⟨n + 1, i :: visits, by rw [visited?, hvisits, Option.map_some]⟩

theorem visited?_mono (hmn : m ≤ n) (h : visited? next m stack = some visits) :
    visited? next n stack = some visits := by
  induction m generalizing n stack visits with
  | zero =>
    cases stack with
    | nil =>
      cases h
      cases n <;> rfl
    | cons i rest => cases h
  | succ m ih =>
    obtain ⟨n, rfl⟩ : ∃ k, n = k + 1 := ⟨n - 1, by omega⟩
    cases stack with
    | nil => exact h
    | cons i rest =>
      obtain ⟨later, hlater, rfl⟩ := Option.map_eq_some_iff.1 h
      rw [visited?, ih (by omega) hlater, Option.map_some]

/-- A walk whose rounds come to an end has its result within the budget, and any further steps give
the same. -/
theorem visited?_eq_of_walkBudget_le {a : Arena} (hnext : ∀ i, (next i).Sublist (a.links i))
    (h : WellFounded (Round next)) (roots : NodeList) :
    ∃ visits, ∀ n, a.walkBudget roots ≤ n → visited? next n roots = some visits := by
  obtain ⟨m, visits, hvisits⟩ := exists_visited? h roots
  exact ⟨visits, fun n hn => visited?_mono hn (visited?_walkBudget hnext hvisits)⟩

end Walk

namespace Builder
variable {b : Builder} {m n : Nat} {stack : List Frame} {buckets : List Bucket} {after : State}

/-- One round of the build: the frame on top is worked off. -/
def Round (b : Builder) (after before : State) : Prop :=
  ∃ frame stack, before.stack = frame :: stack ∧ b.step frame ⟨stack, before.buckets⟩ = .ok after

/-- How high a frame stands. A frame that closes a container is below every visit. -/
def Frame.height (a : Arena) : Frame → Nat
  | .visit member => a.rank member + 1
  | .finishNamespace _ | .finishType _ => 0

theorem height_of_mem_push (h : b.tree.arena.Descends) {i : NodeIndex} {o : Opened}
    (ho : b.Opens i o) {finish : Frame} (hfinish : finish.height b.tree.arena = 0) :
    ∀ f ∈ o.members.map Frame.visit ++ [finish],
      f.height b.tree.arena < (Frame.visit i).height b.tree.arena := by
  intro f hf
  obtain hf | hf := List.mem_append.1 hf
  · obtain ⟨j, hj, rfl⟩ := List.mem_map.1 hf
    rw [ho.members_eq] at hj
    exact Nat.succ_lt_succ (declaredMembers_lowers h i j hj)
  · rw [List.mem_singleton.1 hf, hfinish]
    exact Nat.succ_pos _

/-- Frames of less height take the place of the one that is worked off. -/
theorem exists_stack_of_step (h : b.tree.arena.Descends) {frame : Frame}
    (hstep : b.step frame ⟨stack, buckets⟩ = .ok after) :
    ∃ new, after.stack = new ++ stack ∧
      ∀ f ∈ new, f.height b.tree.arena < frame.height b.tree.arena := by
  cases frame with
  | visit i =>
    obtain ⟨o, hopen, hstep⟩ := Outcome.bind_eq_ok hstep
    have ho := openMember_eq_ok_iff.1 hopen
    cases o with
    | leaf header =>
      cases hstep
      exact ⟨[], rfl, List.forall_mem_nil _⟩
    | ofNamespace pending members =>
      cases hstep
      refine ⟨members.map .visit ++ [.finishNamespace pending], ?_, height_of_mem_push h ho rfl⟩
      simp [push]
    | ofType header members =>
      cases hstep
      refine ⟨members.map .visit ++ [.finishType header], ?_, height_of_mem_push h ho rfl⟩
      simp [push]
  | finishNamespace pending =>
    cases hstep
    exact ⟨[], rfl, List.forall_mem_nil _⟩
  | finishType header =>
    cases hstep
    exact ⟨[], rfl, List.forall_mem_nil _⟩

theorem wellFounded_round (h : b.tree.arena.Descends) : WellFounded b.Round := by
  have hheights : WellFounded (InvImage (TopReplaced (InvImage (· < ·) (Frame.height b.tree.arena)))
      State.stack) :=
    InvImage.wf _ (wellFounded_topReplaced (InvImage.wf _ Nat.lt_wfRel.wf))
  refine Subrelation.wf ?_ hheights
  rintro after before ⟨frame, stack, hstack, hstep⟩
  obtain ⟨new, hnew, hlower⟩ := exists_stack_of_step h hstep
  exact ⟨frame, new, stack, hstack, hnew, hlower⟩

theorem step_ne_endless (b : Builder) (frame : Frame) (state : State) :
    b.step frame state ≠ .error (.endless b.tree.id) := by
  intro hstep
  cases frame with
  | visit i =>
    obtain ⟨o, ho, -⟩ | ⟨e, herror, hfault⟩ := b.opens_or_fault i
    · rw [step, ho.openMember_eq] at hstep
      cases o <;> cases hstep
    · rw [step, openMember_of_fault hfault] at hstep
      cases hstep
      exact b.openFault?_ne_endless i hfault
  | finishNamespace pending => cases hstep
  | finishType header => cases hstep

theorem exists_ends (h : WellFounded b.Round) (state : State) :
    ∃ n, b.Ends n state.stack state.buckets := by
  induction state using h.induction with
  | _ state ih =>
    obtain ⟨stack, buckets⟩ := state
    cases stack with
    | nil => exact ⟨0, nofun⟩
    | cons frame stack =>
      obtain ⟨after, hafter⟩ | ⟨e, he⟩ := Outcome.ok_or_error (b.step frame ⟨stack, buckets⟩)
      · obtain ⟨n, hn⟩ := ih after ⟨frame, stack, rfl, hafter⟩
        refine ⟨n + 1, ?_⟩
        rw [Ends, run, hafter, Outcome.ok_bind]
        exact hn
      · refine ⟨1, ?_⟩
        have hne := b.step_ne_endless frame ⟨stack, buckets⟩
        rw [he] at hne
        rw [Ends, run, he, Outcome.error_bind]
        intro hfail
        cases hfail
        exact hne rfl

theorem Ends.run_eq (h : b.Ends m stack buckets) (hmn : m ≤ n) :
    b.run n ⟨stack, buckets⟩ = b.run m ⟨stack, buckets⟩ := by
  induction m generalizing n stack buckets with
  | zero =>
    cases stack with
    | nil => cases n <;> rfl
    | cons frame stack => exact absurd rfl h
  | succ m ih =>
    obtain ⟨n, rfl⟩ : ∃ k, n = k + 1 := ⟨n - 1, by omega⟩
    cases stack with
    | nil => rfl
    | cons frame stack =>
      rw [Ends, run] at h
      rw [run, run]
      cases hstep : b.step frame ⟨stack, buckets⟩ with
      | error e => rfl
      | ok after =>
        rw [hstep, Outcome.ok_bind] at h
        exact ih h (by omega)

/-- A build whose rounds come to an end does so within its budget, and any further steps give the
same. -/
theorem run_eq_of_walkBudget_le (h : WellFounded b.Round) (members : NodeList) :
    b.declarationsOf members ≠ .error (.endless b.tree.id) ∧
      ∀ n, b.tree.arena.walkBudget members ≤ n →
        b.run n ⟨members.map .visit, [[]]⟩ = b.declarationsOf members := by
  obtain ⟨m, hends⟩ := exists_ends h ⟨members.map .visit ++ [], [[]]⟩
  -- The steps that suffice depend on the stack; the budget is known to suffice by the recursion.
  obtain ⟨depth, hdepth, -⟩ := hends.completes
  have hbudget : b.declarationsOf members ≠ .error (.endless b.tree.id) := by
    rw [declarationsOf_eq_size, declarationsFrom_size hdepth]
    exact hdepth
  exact ⟨hbudget, fun n hn => Ends.run_eq hbudget hn⟩

end Builder

namespace Arena
variable {a : Arena} {i j : NodeIndex}

/-- A recursion that goes on as names are read comes to the same at all depths above a rank. -/
theorem Descends.eq_of_rank_lt (h : a.Descends) {β : Type} {f : Nat → NodeIndex → β}
    (hstep : ∀ m n i, (∀ j, a.NameCall j i → f m j = f n j) → f (m + 1) i = f (n + 1) i)
    {m n : Nat} (hm : a.rank i < m) (hn : a.rank i < n) : f m i = f n i := by
  induction m generalizing n i with
  | zero => omega
  | succ m ih =>
    obtain ⟨n, rfl⟩ : ∃ k, n = k + 1 := ⟨n - 1, by omega⟩
    refine hstep m n i fun j hj => ?_
    have hlower := h.rank_lt_of_nameCall hj
    exact ih (by omega) (by omega)

theorem lastIdentifierFrom_congr (m n : Nat) (i : NodeIndex)
    (hbelow : ∀ j, a.NameCall j i → a.lastIdentifierFrom m j = a.lastIdentifierFrom n j) :
    a.lastIdentifierFrom (m + 1) i = a.lastIdentifierFrom (n + 1) i := by
  unfold lastIdentifierFrom
  cases hd : a.payload? .qualifiedName i with
  | none => rfl
  | some d => simp only [hbelow d.right (.right hd), Option.bind_eq_bind, Option.bind_some]

theorem nameTextFrom_congr (m n : Nat) (i : NodeIndex)
    (hbelow : ∀ j, a.NameCall j i → a.nameTextFrom m j = a.nameTextFrom n j) :
    a.nameTextFrom (m + 1) i = a.nameTextFrom (n + 1) i := by
  have harguments (d : Syntax.GenericName) (hd : a.payload? .genericName i = some d) :
      d.typeArguments.filterMap (a.nameTextFrom m) =
        d.typeArguments.filterMap (a.nameTextFrom n) :=
    List.filterMap_congr fun j hj => hbelow j (.typeArgument hd hj)
  have hsides (d : Syntax.QualifiedName) (hd : a.payload? .qualifiedName i = some d) :
      a.nameTextFrom m d.left = a.nameTextFrom n d.left ∧
        a.nameTextFrom m d.right = a.nameTextFrom n d.right :=
    ⟨hbelow d.left (.left hd), hbelow d.right (.right hd)⟩
  unfold nameTextFrom
  split
  · rfl
  · rfl
  · rfl
  · cases hd : a.payload? .genericName i with
    | none => rfl
    | some d => simp only [harguments d hd, Option.bind_eq_bind, Option.bind_some]
  · cases hd : a.payload? .qualifiedName i with
    | none => rfl
    | some d => simp only [hsides d hd, Option.bind_eq_bind, Option.bind_some]
  · cases hd : a.payload? .qualifiedName i with
    | none => rfl
    | some d => simp only [hsides d hd, Option.bind_eq_bind, Option.bind_some]
  · rfl

/-- Every walk over an arena comes to an end, wherever it starts. The first statement on a walk is
that no rounds or calls of it go on forever; the next is that the numbers of steps and depths which
the definitions allow never cut it short, so that any greater number gives the same. -/
structure WalksEnd (a : Arena) : Prop where
  /-- The stack of frames, with any tree and hints around the arena. -/
  frames : ∀ b : Builder, b.tree.arena = a → WellFounded b.Round
  built : ∀ (b : Builder) (members : NodeList), b.tree.arena = a →
    b.declarationsOf members ≠ .error (.endless b.tree.id) ∧
      ∀ n, a.walkBudget members ≤ n →
        b.run n ⟨members.map .visit, [[]]⟩ = b.declarationsOf members
  /-- The namespaces of a file, for its aliases. -/
  namespaces : WellFounded (Walk.Round a.namespaceMembers)
  namespaceVisits : ∀ roots, ∃ visits, ∀ n, a.walkBudget roots ≤ n →
    Walk.visited? a.namespaceMembers n roots = some visits
  aliasHints : ∀ unit, ∃ hints, a.fileAliasHints? unit = some hints
  /-- The parts of a statement, whatever is looked for. -/
  statements : WellFounded (Walk.Round a.innerStatements)
  contained : ∀ statement p n, a.walkBudget [statement] ≤ n →
    Walk.meets? a.innerStatements p n [statement] = some (a.containsNode statement p)
  /-- Names, with their segments and texts. -/
  names : WellFounded a.NameCall
  segments : ∀ i depth, a.size ≤ depth → a.segmentsFrom depth i = a.segments i
  lastIdentifier : ∀ i depth, a.size < depth → a.lastIdentifierFrom depth i = a.lastIdentifier? i
  nameText : ∀ i depth, a.size < depth → a.nameTextFrom depth i = a.nameText? i
  /-- The build of a whole file, be it a script or not. -/
  declared : ∀ (t : SyntaxTree) (options : DeclarationOptions) (id : TreeId), t.arena = a →
    t.declare options ≠ .error (.endless id)

end Arena

namespace SyntaxTree
variable {t : SyntaxTree}

theorem nodeFault?_ne_endless (t : SyntaxTree) (i : NodeIndex) (id : TreeId) :
    t.nodeFault? i ≠ some (.endless id) := by
  intro hfault
  cases nodeFault?_eq_some_iff.1 hfault

theorem declare_ne_endless (h : t.arena.Descends) (options : DeclarationOptions) (id : TreeId) :
    t.declare options ≠ .error (.endless id) := by
  intro hdeclare
  obtain ⟨visits, hvisits⟩ :=
    (h.lowers_of_sublist t.declaredMembers_sublist_links).exists_preorder [t.root]
  have herror := t.error?_sources h hvisits
  rw [← Outcome.error?_bind_ok t.sources, ← declare_eq options, hdeclare, Outcome.error?_error]
    at herror
  split at herror
  · obtain ⟨i, -, hi⟩ := List.exists_of_findSome?_eq_some herror.symm
    exact t.nodeFault?_ne_endless i id hi
  · cases herror

end SyntaxTree

namespace Arena
variable {a : Arena}

theorem meets?_eq_containsNode (h : WellFounded (Walk.Round a.innerStatements))
    (statement : NodeIndex) (p : NodeIndex → Bool) {n : Nat} (hn : a.walkBudget [statement] ≤ n) :
    Walk.meets? a.innerStatements p n [statement] = some (a.containsNode statement p) := by
  obtain ⟨visits, hvisits⟩ :=
    Walk.visited?_eq_of_walkBudget_le a.innerStatements_sublist h [statement]
  rw [containsNode, Walk.meets?_eq_any (hvisits _ hn),
    Walk.meets?_eq_any (hvisits _ (Nat.le_refl _)), Option.getD_some]

/-- Links that lead to lower indices or to no node let no walk go on forever. -/
theorem Descends.walksEnd (h : a.Descends) : a.WalksEnd where
  frames := by
    rintro b rfl
    exact Builder.wellFounded_round h
  built := by
    rintro b members rfl
    exact Builder.run_eq_of_walkBudget_le (Builder.wellFounded_round h) members
  namespaces := (h.lowers_of_sublist a.namespaceMembers_sublist).wellFounded_round
  namespaceVisits := Walk.visited?_eq_of_walkBudget_le a.namespaceMembers_sublist
    (h.lowers_of_sublist a.namespaceMembers_sublist).wellFounded_round
  aliasHints unit := Option.isSome_iff_exists.1 (h.fileAliasHints?_isSome unit)
  statements := (h.lowers_of_sublist a.innerStatements_sublist).wellFounded_round
  contained statement p n hn :=
    meets?_eq_containsNode (h.lowers_of_sublist a.innerStatements_sublist).wellFounded_round
      statement p hn
  names := h.wellFounded_nameCall
  segments i depth hdepth :=
    (nameEnds_of_wellFounded h.wellFounded_nameCall i).segmentsFrom_eq hdepth
  lastIdentifier i depth hdepth := by
    have hrank := a.rank_le_size i
    exact h.eq_of_rank_lt lastIdentifierFrom_congr (by omega) (by omega)
  nameText i depth hdepth := by
    have hrank := a.rank_le_size i
    exact h.eq_of_rank_lt nameTextFrom_congr (by omega) (by omega)
  declared := by
    rintro t options id rfl
    exact SyntaxTree.declare_ne_endless h options id

/-- The nodes of a file in which one namespace is listed twice, one class twice in it, and the name
of the namespace has the same node on both sides. The class lists an attribute that is no node. -/
def sampleShared : Arena :=
  let a : Arena := {}
  let a := (a.add .identifier .identifierName ⟨10, 11⟩ (⟨"A"⟩ : Syntax.Identifier)).2
  let a := (a.add .qualifiedName .qualifiedName ⟨10, 13⟩
    (⟨.ofNat 0, .ofNat 0⟩ : Syntax.QualifiedName)).2
  let a := (a.add .identifier .identifierToken ⟨22, 23⟩ (⟨"C"⟩ : Syntax.Identifier)).2
  let a := (a.add .typeDecl .classDeclaration ⟨16, 26⟩
    ({ attributeLists := [.ofNat 40], identifier := .ofNat 2 } : Syntax.TypeDecl)).2
  let a := (a.add .namespaceDecl .namespaceDeclaration ⟨0, 28⟩
    ({ name := .ofNat 1, members := [.ofNat 3, .ofNat 3] } : Syntax.Namespace)).2
  (a.add .compilationUnit .compilationUnit ⟨0, 29⟩
    ({ members := [.ofNat 4, .ofNat 4] } : Syntax.CompilationUnit)).2

theorem sampleShared_walksEnd : sampleShared.Descends ∧ sampleShared.WalksEnd := by
  have hdescends : sampleShared.Descends := by decide +kernel
  exact ⟨hdescends, hdescends.walksEnd⟩

end Arena

end DeclTree
