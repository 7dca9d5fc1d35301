import DeclTree.Proofs.Assembly
/-!
When a file has no declarations, and why: the fault is that of the first node in pre-order that has
one, among the nodes that the members of the root lead to.
-/
namespace DeclTree

namespace SyntaxTree
variable {t : SyntaxTree} {i : NodeIndex}

/-- An entry that may stand in a list of members. -/
def Listable (t : SyntaxTree) (j : NodeIndex) : Prop :=
  ∃ k ∈ SyntaxKind.memberKinds, t.arena.kindOf? j = some k

/-- A fault of one node: it lacks its payload, or it lists an entry that is no node or no member,
where the first such entry counts. The container that the fault names is the node that lists it. -/
inductive FaultAt (t : SyntaxTree) (i : NodeIndex) : Fault → Prop
  | missing {k : SyntaxKind} {s : Shape} :
      t.arena.kindOf? i = some k → k.shape? = some s → t.arena.payload? s i = none →
      FaultAt t i (.missingPayload t.id i k s)
  | dangling {k : SyntaxKind} {before : NodeList} {j : NodeIndex} {after : NodeList} :
      t.arena.kindOf? i = some k → t.memberList i = before ++ j :: after →
      (∀ m ∈ before, t.Listable m) → t.arena.get? j = none →
      FaultAt t i (.danglingMember t.id j k)
  | unexpected {k : SyntaxKind} {before : NodeList} {j : NodeIndex} {after : NodeList}
      {h : Header} :
      t.arena.kindOf? i = some k → t.memberList i = before ++ j :: after →
      (∀ m ∈ before, t.Listable m) → t.arena.get? j = some h →
      h.kind ∉ SyntaxKind.memberKinds →
      FaultAt t i (.unexpectedMember t.id h.kind h.span k)

theorem entryFault?_eq_none_iff {container : SyntaxKind} {j : NodeIndex} :
    t.entryFault? container j = none ↔ t.Listable j := by
  unfold entryFault? Listable Arena.kindOf?
  cases t.arena.get? j with
  | none => simp
  | some h => by_cases hk : h.kind ∈ SyntaxKind.memberKinds <;> simp [hk]

theorem payload?_of_mem_memberList {j : NodeIndex} (hj : j ∈ t.memberList i) :
    ∃ k s, t.arena.kindOf? i = some k ∧ k.shape? = some s ∧ (t.arena.payload? s i).isSome := by
  have hlinks : j ∈ t.arena.links i := (t.memberList_sublist_links i).subset hj
  obtain ⟨s, d, hd, -⟩ := Arena.exists_payload?_of_mem_links hlinks
  obtain ⟨k, hk, hs⟩ := Option.bind_eq_some_iff.1 (Arena.shape?_of_payload? hd)
  exact ⟨k, s, hk, hs, by simp [hd]⟩

/-- The first entry at fault is the fault of the node that lists it. -/
theorem nodeFault?_of_entry {k : SyntaxKind} {before after : NodeList} {j : NodeIndex} {e : Fault}
    (hk : t.arena.kindOf? i = some k) (hlist : t.memberList i = before ++ j :: after)
    (hbefore : ∀ m ∈ before, t.Listable m) (hj : t.entryFault? k j = some e) :
    t.nodeFault? i = some e := by
  have hmem : j ∈ t.memberList i := by simp [hlist]
  obtain ⟨k', s, hk', hs, hsome⟩ := payload?_of_mem_memberList hmem
  obtain ⟨d, hd⟩ := Option.isSome_iff_exists.1 hsome
  have hnone : before.findSome? (t.entryFault? k) = none :=
    List.findSome?_eq_none_iff.2 fun m hm => entryFault?_eq_none_iff.2 (hbefore m hm)
  rw [nodeFault?_of_payload hk hd, hlist, List.findSome?_append, hnone, Option.none_or,
    List.findSome?_cons, hj]

theorem nodeFault?_eq_some_iff {e : Fault} : t.nodeFault? i = some e ↔ t.FaultAt i e := by
  constructor
  · intro he
    cases hk : t.arena.kindOf? i with
    | none => simp [nodeFault?, hk] at he
    | some k =>
      cases hs : k.shape? with
      | none => simp [nodeFault?, hk, hs] at he
      | some s =>
        cases hd : t.arena.payload? s i with
        | none =>
          rw [nodeFault?_of_missing hk hs hd] at he
          cases he
          exact .missing hk hs hd
        | some d =>
          rw [nodeFault?_of_payload hk hd] at he
          obtain ⟨before, j, after, hlist, hj, hnone⟩ := List.findSome?_eq_some_iff.1 he
          have hbefore : ∀ m ∈ before, t.Listable m :=
            fun m hm => entryFault?_eq_none_iff.1 (hnone m hm)
          unfold entryFault? at hj
          cases hget : t.arena.get? j with
          | none =>
            rw [hget] at hj
            cases hj
            exact .dangling hk hlist hbefore hget
          | some h =>
            by_cases hmem : h.kind ∈ SyntaxKind.memberKinds
            · simp [hget, hmem] at hj
            · simp only [hget, hmem, ↓reduceIte, Option.some.injEq] at hj
              rw [← hj]
              exact .unexpected hk hlist hbefore hget hmem
  · intro hfault
    cases hfault with
    | missing hk hs hd => exact nodeFault?_of_missing hk hs hd
    | dangling hk hlist hbefore hget =>
      exact nodeFault?_of_entry hk hlist hbefore (by simp [entryFault?, hget])
    | unexpected hk hlist hbefore hget hmem =>
      exact nodeFault?_of_entry hk hlist hbefore (by simp [entryFault?, hget, hmem])

end SyntaxTree

namespace Builder
variable {b : Builder}

/-- Below a container every member is a declaration, so its fault is one of its own. -/
theorem findSome?_openFault? {i : NodeIndex} {visits : NodeList}
    (hvisits : Walk.Preorder b.tree.declaredMembers (b.tree.declaredMembers i) visits) :
    visits.findSome? b.openFault? = visits.findSome? b.tree.nodeFault? := by
  have hall : ∀ j ∈ visits, b.openFault? j = b.tree.nodeFault? j := by
    intro j hj
    have hdeclared : ∃ k, j ∈ b.tree.declaredMembers k := by
      obtain hroot | ⟨k, -, hnext⟩ := hvisits.mem_roots_or_next hj
      · exact ⟨i, hroot⟩
      · exact ⟨k, hnext⟩
    obtain ⟨k, hk⟩ := hdeclared
    obtain ⟨h, hget, hdecl⟩ := SyntaxTree.mem_declaredMembers hk
    simp [openFault?, hget, hdecl]
  clear hvisits
  induction visits with
  | nil => rfl
  | cons j rest ih =>
    rw [List.findSome?_cons, List.findSome?_cons, hall j List.mem_cons_self,
      ih fun k hk => hall k (List.mem_cons_of_mem j hk)]

theorem error?_ofUnit (h : b.tree.arena.Descends) {d : Syntax.CompilationUnit}
    (hk : b.tree.arena.kindOf? b.tree.root = some .compilationUnit)
    (hd : b.tree.arena.payload? .compilationUnit b.tree.root = some d) {visits : NodeList}
    (hvisits : Walk.Preorder b.tree.declaredMembers [b.tree.root] visits) :
    Outcome.error? (b.tree.listMembers .compilationUnit d.members >>= fun listed =>
      b.declarationsOf (ListedMember.select listed .declaration) >>= fun built =>
        .ok (⟨d, listed, built⟩ : Sources)) = visits.findSome? b.tree.nodeFault? := by
  cases hvisits with
  | @cons _ _ below later hbelow hlater =>
    cases hlater
    rw [List.append_nil, List.findSome?_cons, SyntaxTree.nodeFault?_of_payload hk hd,
      SyntaxTree.memberList_of_unit hd, ← SyntaxTree.error?_listMembers]
    cases hlisted : b.tree.listMembers .compilationUnit d.members with
    | error e => rfl
    | ok listed =>
      rw [← SyntaxTree.memberList_of_unit hd] at hlisted
      have hranks : ∀ j ∈ b.tree.declaredMembers b.tree.root,
          b.tree.arena.rank j < b.tree.arena.size + 1 :=
        fun j _ => Nat.lt_succ_of_le (b.tree.arena.rank_le_size j)
      rw [Outcome.ok_bind, Outcome.error?_bind_ok, Outcome.error?_ok,
        SyntaxTree.select_eq_declaredMembers hk rfl hlisted,
        declarationsOf_eq_declarationsFrom h (Nat.lt_succ_self _),
        error?_declarationsFrom h hbelow hranks, findSome?_openFault? hbelow]

end Builder

namespace SyntaxTree
variable {t : SyntaxTree}

theorem fileHints_eq_ok (h : t.arena.Descends) : ∃ hints, t.fileHints = .ok hints := by
  obtain ⟨hints, hsome⟩ := Option.isSome_iff_exists.1 (h.fileAliasHints?_isSome t.root)
  exact ⟨hints, by rw [fileHints, hsome]⟩

/-- The fault of a file, from the visits that start at its root. -/
theorem error?_sources (h : t.arena.Descends) {visits : NodeList}
    (hvisits : Walk.Preorder t.declaredMembers [t.root] visits) :
    Outcome.error? t.sources =
      if t.arena.kindOf? t.root = some .compilationUnit then visits.findSome? t.nodeFault?
      else some (.rootNotCompilationUnit t.id t.root (t.arena.kindOf? t.root)) := by
  obtain ⟨hints, hhints⟩ := t.fileHints_eq_ok h
  by_cases hk : t.arena.kindOf? t.root = some .compilationUnit
  · rw [if_pos hk, sources, checkRoot, hk, Outcome.ok_bind, hhints, Outcome.ok_bind, payload]
    cases hd : t.arena.payload? .compilationUnit t.root with
    | none =>
      cases hvisits
      rw [List.findSome?_cons, nodeFault?_of_missing hk rfl hd]
      rfl
    | some d => exact Builder.error?_ofUnit (b := ⟨t, hints⟩) h hk hd hvisits
  · rw [if_neg hk, sources, checkRoot]
    split
    · contradiction
    · rfl

theorem shape?_isSome_of_isDeclaration {k : SyntaxKind} (hk : k.isDeclaration = true) :
    ∃ s, k.shape? = some s := by
  obtain hkind | hkind | rfl | rfl := (SyntaxKind.isDeclaration_iff k).1 hk
  · exact ⟨_, SyntaxKind.shape?_of_isNamespace hkind⟩
  · exact ⟨_, SyntaxKind.shape?_of_isClassLike hkind⟩
  · exact ⟨_, rfl⟩
  · exact ⟨_, rfl⟩

theorem nodeFault?_eq_none_iff {i : NodeIndex} {k : SyntaxKind} {s : Shape}
    (hk : t.arena.kindOf? i = some k) (hs : k.shape? = some s) :
    t.nodeFault? i = none ↔
      (t.arena.payload? s i).isSome ∧ ∀ j ∈ t.memberList i, t.Listable j := by
  cases hd : t.arena.payload? s i with
  | none => simp [nodeFault?_of_missing hk hs hd]
  | some d =>
    rw [nodeFault?_of_payload hk hd, List.findSome?_eq_none_iff]
    simp only [entryFault?_eq_none_iff, Option.isSome_some, true_and]

theorem forall_nodeFault?_eq_none_iff
    (hroot : t.arena.kindOf? t.root = some .compilationUnit) :
    (∀ i, t.Reached i → t.nodeFault? i = none) ↔
      (t.arena.payload? .compilationUnit t.root).isSome ∧
      (∀ i, t.Reached i → ∀ j ∈ t.memberList i, t.Listable j) ∧
      ∀ i k s, t.Reached i → t.arena.kindOf? i = some k → k.isDeclaration = true →
        k.shape? = some s → (t.arena.payload? s i).isSome := by
  constructor
  · intro hnone
    have hfit : ∀ i k s, t.Reached i → t.arena.kindOf? i = some k → k.shape? = some s →
        (t.arena.payload? s i).isSome ∧ ∀ j ∈ t.memberList i, t.Listable j :=
      fun i k s hi hk hs => (nodeFault?_eq_none_iff hk hs).1 (hnone i hi)
    refine ⟨(hfit _ _ _ (.refl _) hroot rfl).1, fun i hi j hj => ?_, ?_⟩
    · obtain ⟨k, s, hk, hs, -⟩ := payload?_of_mem_memberList hj
      exact (hfit i k s hi hk hs).2 j hj
    · exact fun i k s hi hk _ hs => (hfit i k s hi hk hs).1
  · intro ⟨hunit, hlist, hpayload⟩ i hi
    obtain rfl | ⟨h, hget, hdecl⟩ := hi.eq_root_or_declaration
    · exact (nodeFault?_eq_none_iff hroot rfl).2 ⟨hunit, hlist _ hi⟩
    · have hk : t.arena.kindOf? i = some h.kind := by simp [Arena.kindOf?, hget]
      obtain ⟨s, hs⟩ := shape?_isSome_of_isDeclaration hdecl
      exact (nodeFault?_eq_none_iff hk hs).2 ⟨hpayload i _ s hi hk hdecl hs, hlist i hi⟩

theorem findSome?_nodeFault?_iff {roots visits : NodeList} {e : Fault}
    (hvisits : Walk.Preorder t.declaredMembers roots visits) :
    visits.findSome? t.nodeFault? = some e ↔
      ∃ before i after, Walk.Preorder t.declaredMembers roots (before ++ i :: after) ∧
        (∀ j ∈ before, ∀ e', ¬ t.FaultAt j e') ∧ t.FaultAt i e := by
  have hnone (j : NodeIndex) : t.nodeFault? j = none ↔ ∀ e', ¬ t.FaultAt j e' := by
    simp only [Option.eq_none_iff_forall_ne_some, ne_eq, nodeFault?_eq_some_iff]
  rw [List.findSome?_eq_some_iff]
  constructor
  · rintro ⟨before, i, after, rfl, hfault, hbefore⟩
    exact ⟨before, i, after, hvisits, fun j hj => (hnone j).1 (hbefore j hj),
      nodeFault?_eq_some_iff.1 hfault⟩
  · rintro ⟨before, i, after, hvisits', hbefore, hfault⟩
    exact ⟨before, i, after, hvisits.unique hvisits', nodeFault?_eq_some_iff.2 hfault,
      fun j hj => (hnone j).2 (hbefore j hj)⟩

/-- A file is built just if its root is a compilation unit and every node that the build comes to has
its payload and lists members only. Otherwise the first fault in pre-order is given. -/
theorem declare_outcome (t : SyntaxTree) (options : DeclarationOptions)
    (h : t.arena.Descends) :
    ((∃ r, t.declare options = .ok r) ↔
      t.arena.kindOf? t.root = some .compilationUnit ∧
      (t.arena.payload? .compilationUnit t.root).isSome ∧
      (∀ i, t.Reached i → ∀ j ∈ t.memberList i, t.Listable j) ∧
      ∀ i k s, t.Reached i → t.arena.kindOf? i = some k → k.isDeclaration = true →
        k.shape? = some s → (t.arena.payload? s i).isSome) ∧
    ∀ e, t.declare options = .error e ↔
      (t.arena.kindOf? t.root ≠ some .compilationUnit ∧
        e = .rootNotCompilationUnit t.id t.root (t.arena.kindOf? t.root)) ∨
      (t.arena.kindOf? t.root = some .compilationUnit ∧
        ∃ before i after, Walk.Preorder t.declaredMembers [t.root] (before ++ i :: after) ∧
          (∀ j ∈ before, ∀ e', ¬ t.FaultAt j e') ∧ t.FaultAt i e) := by
  obtain ⟨visits, hvisits⟩ :=
    (h.lowers_of_sublist t.declaredMembers_sublist_links).exists_preorder [t.root]
  have herror := t.error?_sources h hvisits
  rw [← Outcome.error?_bind_ok t.sources, ← declare_eq options] at herror
  have hok : (∃ r, t.declare options = .ok r) ↔ Outcome.error? (t.declare options) = none :=
    Outcome.error?_eq_none_iff.symm
  have hfail (e : Fault) : t.declare options = .error e ↔
      Outcome.error? (t.declare options) = some e := Outcome.error?_eq_some_iff.symm
  by_cases hk : t.arena.kindOf? t.root = some .compilationUnit
  · rw [if_pos hk] at herror
    have hall : visits.findSome? t.nodeFault? = none ↔
        ∀ i, t.Reached i → t.nodeFault? i = none := by
      rw [List.findSome?_eq_none_iff]
      exact forall_congr' fun i => by rw [mem_visits_iff hvisits]
    refine ⟨?_, fun e => ?_⟩
    · rw [hok, herror, hall, forall_nodeFault?_eq_none_iff hk]
      exact (and_iff_right hk).symm
    · rw [hfail, herror, findSome?_nodeFault?_iff hvisits]
      exact ⟨fun he => .inr ⟨hk, he⟩, fun he => he.elim (fun hn => absurd hk hn.1) And.right⟩
  · rw [if_neg hk] at herror
    refine ⟨?_, fun e => ?_⟩
    · rw [hok, herror]
      exact ⟨fun hn => (by cases hn), fun hn => absurd hn.1 hk⟩
    · rw [hfail, herror, Option.some.injEq]
      exact ⟨fun he => .inl ⟨hk, he.symm⟩,
        fun he => he.elim (fun hr => hr.2.symm) fun hu => absurd hu.1 hk⟩

theorem sample_declare_outcome :
    SyntaxTree.sample.arena.Descends ∧ (∃ r, SyntaxTree.sample.declare {} = .ok r) ∧
      ∀ i, SyntaxTree.sample.Reached i →
        ∀ j ∈ SyntaxTree.sample.memberList i, SyntaxTree.sample.Listable j := by
  have hok : ∃ r, SyntaxTree.sample.declare {} = .ok r :=
    Outcome.exists_eq_ok (by decide +kernel)
  exact ⟨Arena.sample_descends, hok,
    ((declare_outcome .sample {} Arena.sample_descends).1.1 hok).2.2.1⟩

end SyntaxTree

end DeclTree
