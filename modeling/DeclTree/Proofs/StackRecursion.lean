import DeclTree.Proofs.Recursion
/-!
The stack of frames does what plain recursion on the nesting of the source does. A list of members on
top of a stack is worked off in a number of steps that the budget allows, and its declarations go
into the innermost bucket; a fault is the one that recursion meets first.
-/
namespace DeclTree.Builder
variable {b : Builder} {i : NodeIndex}

theorem run_step (steps : Nat) (frame : Frame) (stack : List Frame) (buckets : List Bucket) :
    b.run (1 + steps) ⟨frame :: stack, buckets⟩ =
      (b.step frame ⟨stack, buckets⟩ >>= b.run steps) := by
  rw [Nat.add_comm, run]

/-- Wherever some members lie on top of a stack, that many steps work them off: their declarations by
recursion are put into the innermost bucket, and the work goes on with what lies below. -/
def WorksOff (b : Builder) (depth : Nat) (members : NodeList) (cost : Nat) : Prop :=
  ∀ (steps : Nat) (stack : List Frame) (bucket : Bucket) (outer : List Bucket),
    b.run (cost + steps) ⟨members.map .visit ++ stack, bucket :: outer⟩ =
      (b.declarationsFrom depth members >>= fun inner =>
        b.run steps ⟨stack, (inner.reverse ++ bucket) :: outer⟩)

theorem worksOff_nil (depth : Nat) : b.WorksOff depth [] 0 := by
  intro steps stack bucket outer
  rw [Nat.zero_add]
  rfl

theorem WorksOff.cons {depth cost costRest : Nat} {rest : NodeList}
    (hfirst : b.WorksOff depth [i] cost) (hrest : b.WorksOff depth rest costRest) :
    b.WorksOff depth (i :: rest) (cost + costRest) := by
  intro steps stack bucket outer
  have hrun := hfirst (costRest + steps) (rest.map .visit ++ stack) bucket outer
  rw [declarationsFrom_single, Outcome.bind_assoc] at hrun
  rw [Nat.add_assoc, declarationsFrom_cons, Outcome.bind_assoc]
  refine hrun.trans (congrArg _ (funext fun d => ?_))
  rw [Outcome.ok_bind, Outcome.bind_assoc, hrest]
  refine congrArg _ (funext fun ds => ?_)
  simp

theorem worksOff_of_fault {e : Fault} (hfault : b.openFault? i = some e) (depth : Nat) :
    b.WorksOff (depth + 1) [i] 1 := by
  intro steps stack bucket outer
  rw [declarationsFrom_single, declarationFrom_of_fault hfault]
  refine (run_step steps _ _ _).trans ?_
  rw [step, openMember_of_fault hfault]
  rfl

theorem worksOff_of_leaf {header : TypeHeader} (ho : b.Opens i (.leaf header)) (depth : Nat) :
    b.WorksOff (depth + 1) [i] 1 := by
  intro steps stack bucket outer
  rw [declarationsFrom_single, declarationFrom_of_opens ho]
  refine (run_step steps _ _ _).trans ?_
  rw [step, ho.openMember_eq]
  rfl

/-- Opening a container, working off its members into a new bucket, and closing it. -/
theorem worksOff_of_container {o : Opened} {depth cost : Nat} (ho : b.Opens i o) (finish : Frame)
    (hopen : ∀ stack buckets, b.step (.visit i) ⟨stack, buckets⟩ =
      .ok ⟨push o.members finish stack, [] :: buckets⟩)
    (hclose : ∀ stack bucket outer, b.step finish ⟨stack, bucket :: outer⟩ =
      .ok ⟨stack, put (b.close o bucket.reverse) outer⟩)
    (hmembers : b.WorksOff depth o.members cost) :
    b.WorksOff (depth + 1) [i] (1 + (cost + 1)) := by
  intro steps stack bucket outer
  rw [declarationsFrom_single, declarationFrom_of_opens ho, Outcome.bind_assoc,
    Outcome.bind_assoc, Nat.add_assoc]
  refine (run_step _ _ _ _).trans ?_
  rw [hopen, Outcome.ok_bind, push, Nat.add_assoc]
  refine (hmembers (1 + steps) (finish :: stack) [] (bucket :: outer)).trans ?_
  refine congrArg _ (funext fun inner => ?_)
  rw [run_step, hclose]
  simp [put]

theorem worksOff_of_namespace {pending : OpenNamespace} {members : NodeList} {depth cost : Nat}
    (ho : b.Opens i (.ofNamespace pending members)) (hmembers : b.WorksOff depth members cost) :
    b.WorksOff (depth + 1) [i] (1 + (cost + 1)) := by
  refine worksOff_of_container ho (.finishNamespace pending) ?_ ?_ hmembers
  · intro stack buckets
    rw [step, ho.openMember_eq]
    rfl
  · intro stack bucket outer
    rfl

theorem worksOff_of_type {header : TypeHeader} {members : NodeList} {depth cost : Nat}
    (ho : b.Opens i (.ofType header members)) (hmembers : b.WorksOff depth members cost) :
    b.WorksOff (depth + 1) [i] (1 + (cost + 1)) := by
  refine worksOff_of_container ho (.finishType header) ?_ ?_ hmembers
  · intro stack buckets
    rw [step, ho.openMember_eq]
    rfl
  · intro stack bucket outer
    rfl

theorem exists_worksOff_list {depth bound : Nat} {members : NodeList}
    (hsingle : ∀ i ∈ members, ∃ cost ≤ bound, b.WorksOff depth [i] cost) :
    ∃ cost ≤ members.length * bound, b.WorksOff depth members cost := by
  induction members with
  | nil => exact ⟨0, Nat.zero_le _, worksOff_nil depth⟩
  | cons i rest ih =>
    obtain ⟨cost, hcost, hfirst⟩ := hsingle i List.mem_cons_self
    obtain ⟨costRest, hcostRest, hrest⟩ := ih fun j hj => hsingle j (List.mem_cons_of_mem i hj)
    refine ⟨cost + costRest, ?_, hfirst.cons hrest⟩
    rw [List.length_cons, Nat.add_mul, Nat.one_mul]
    omega

/-- Members are worked off within a number of steps that grows with their rank. -/
theorem exists_worksOff (h : b.tree.arena.Descends) {n depth : Nat} {members : NodeList}
    (hmembers : ∀ i ∈ members, b.tree.arena.rank i ≤ n) (hdepth : n < depth) :
    ∃ cost ≤ members.length * Nat.pow (b.tree.arena.linkCount + 2) n,
      b.WorksOff depth members cost := by
  induction n generalizing members depth with
  | zero =>
    obtain ⟨depth, rfl⟩ : ∃ k, depth = k + 1 := ⟨depth - 1, by omega⟩
    refine exists_worksOff_list fun i hi => ?_
    have hrank := hmembers i hi
    obtain ⟨o, ho, -⟩ | ⟨e, -, hfault⟩ := b.opens_or_fault i
    · -- what opens is a node, and no node has rank zero
      have := ho.rank_pos
      omega
    · exact ⟨1, Nat.le_refl 1, worksOff_of_fault hfault depth⟩
  | succ n ih =>
    obtain ⟨depth, rfl⟩ : ∃ k, depth = k + 1 := ⟨depth - 1, by omega⟩
    refine exists_worksOff_list fun i hi => ?_
    have hrank := hmembers i hi
    have hpow : Nat.pow (b.tree.arena.linkCount + 2) (n + 1) =
        b.tree.arena.linkCount * Nat.pow (b.tree.arena.linkCount + 2) n +
          2 * Nat.pow (b.tree.arena.linkCount + 2) n := by
      rw [← Nat.add_mul]
      exact Nat.mul_comm _ _
    have hpos : 1 ≤ Nat.pow (b.tree.arena.linkCount + 2) n := Nat.pow_pos (by omega)
    obtain ⟨o, ho, -⟩ | ⟨e, -, hfault⟩ := b.opens_or_fault i
    · have hbelow : ∀ j ∈ o.members, b.tree.arena.rank j ≤ n := by
        intro j hj
        rw [ho.members_eq] at hj
        have := declaredMembers_lowers h i j hj
        omega
      have hlength : o.members.length ≤ b.tree.arena.linkCount := by
        rw [ho.members_eq]
        exact Nat.le_trans (b.tree.declaredMembers_sublist_links i).length_le
          (b.tree.arena.length_links_le i)
      obtain ⟨cost, hcost, hwork⟩ := ih hbelow (Nat.lt_of_succ_lt_succ hdepth)
      have hwidth : o.members.length * Nat.pow (b.tree.arena.linkCount + 2) n ≤
          b.tree.arena.linkCount * Nat.pow (b.tree.arena.linkCount + 2) n :=
        Nat.mul_le_mul_right _ hlength
      cases o with
      | leaf header => exact ⟨1, by omega, worksOff_of_leaf ho depth⟩
      | ofNamespace pending members =>
        exact ⟨1 + (cost + 1), by omega, worksOff_of_namespace ho hwork⟩
      | ofType header members => exact ⟨1 + (cost + 1), by omega, worksOff_of_type ho hwork⟩
    · exact ⟨1, by omega, worksOff_of_fault hfault depth⟩

/-- What is worked off within the budget is the result of the stack. -/
theorem WorksOff.declarationsOf_eq {depth cost : Nat} {members : NodeList}
    (hwork : b.WorksOff depth members cost) (hcost : cost ≤
      members.length * Nat.pow (b.tree.arena.linkCount + 2) b.tree.arena.size) :
    b.declarationsOf members = b.declarationsFrom depth members := by
  have hbase : Nat.pow (b.tree.arena.linkCount + 2) b.tree.arena.size ≤
      Nat.pow (members.length + b.tree.arena.linkCount + 2) b.tree.arena.size :=
    Nat.pow_le_pow_left (by omega) _
  have hbudget : cost ≤ b.tree.arena.walkBudget members :=
    calc cost
      _ ≤ members.length * Nat.pow (b.tree.arena.linkCount + 2) b.tree.arena.size := hcost
      _ ≤ (members.length + b.tree.arena.linkCount + 2) *
          Nat.pow (members.length + b.tree.arena.linkCount + 2) b.tree.arena.size :=
        Nat.mul_le_mul (by omega) hbase
      _ = b.tree.arena.walkBudget members := Nat.mul_comm _ _
  obtain ⟨steps, hsteps⟩ := Nat.exists_eq_add_of_le hbudget
  have hrun := hwork steps [] [] []
  rw [List.append_nil] at hrun
  rw [declarationsOf, hsteps, hrun]
  obtain ⟨ds, hds⟩ | ⟨e, he⟩ := Outcome.ok_or_error (b.declarationsFrom depth members)
  · rw [hds, Outcome.ok_bind, run]
    simp [take]
  · rw [he, Outcome.error_bind]

/-- The stack within its budget gives what recursion gives at any depth above the arena's size. -/
theorem declarationsOf_eq_declarationsFrom (h : b.tree.arena.Descends) {depth : Nat}
    (hdepth : b.tree.arena.size < depth) (members : NodeList) :
    b.declarationsOf members = b.declarationsFrom depth members := by
  have hranks : ∀ i ∈ members, b.tree.arena.rank i ≤ b.tree.arena.size :=
    fun i _ => b.tree.arena.rank_le_size i
  obtain ⟨cost, hcost, hwork⟩ := exists_worksOff h hranks hdepth
  exact hwork.declarationsOf_eq hcost

/-- The declaration of a member by plain recursion, as deep as the arena allows. -/
def declaration (b : Builder) (i : NodeIndex) : Except Fault Declaration :=
  b.declarationFrom (b.tree.arena.size + 1) i

/-- The equations of plain recursion on the nesting of the source. -/
structure Recursion (b : Builder) (build : NodeIndex → Except Fault Declaration) : Prop where
  /-- What cannot be opened is at fault, whatever lies below it. -/
  fault : ∀ i e, b.openFault? i = some e → build i = .error e
  /-- A fault below an opened container is a fault of the container. -/
  innerFault : ∀ i o e, b.Opens i o → (b.tree.declaredMembers i).mapM build = .error e →
    build i = .error e
  /-- Delegates and enums have nothing below them. -/
  leaf : ∀ i header, b.Opens i (.leaf header) → build i = .ok (.typeDecl (.mk header []))
  /-- The innermost namespace of a name holds the declarations of the members in order, and then the
  types that are made up. -/
  ofNamespace : ∀ i pending members inner, b.Opens i (.ofNamespace pending members) →
    (b.tree.declaredMembers i).mapM build = .ok inner →
    ∃ d, build i = .ok d ∧
      [d] = Declaration.nest (b.tree.namespaceHeaders pending.node pending.kind pending.parts)
        (inner ++ pending.wrappers.map .typeDecl)
  /-- Below a type are the declarations of its members, all of them types. -/
  ofType : ∀ i header members inner, b.Opens i (.ofType header members) →
    (b.tree.declaredMembers i).mapM build = .ok inner →
    ∃ types, inner = types.map .typeDecl ∧ build i = .ok (.typeDecl (.mk header types))

theorem declaration_of_opens (h : b.tree.arena.Descends) {o : Opened} (ho : b.Opens i o) :
    b.declaration i =
      ((b.tree.declaredMembers i).mapM b.declaration >>= fun inner => .ok (b.close o inner)) := by
  have hbelow : b.declarationsFrom b.tree.arena.size (b.tree.declaredMembers i) =
      (b.tree.declaredMembers i).mapM b.declaration := by
    refine Outcome.mapM_congr fun j hj => ?_
    have hlower := declaredMembers_lowers h i j hj
    have hsize := b.tree.arena.rank_le_size i
    exact declarationFrom_depth h (Nat.lt_succ_self _) (by omega) (by omega)
  rw [declaration, declarationFrom_of_opens ho, ho.members_eq, hbelow]

theorem recursion_declaration (h : b.tree.arena.Descends) : b.Recursion b.declaration where
  fault i e hfault := declarationFrom_of_fault hfault _
  innerFault i o e ho herror := by rw [declaration_of_opens h ho, herror, Outcome.error_bind]
  leaf i header ho := declarationFrom_of_opens ho _
  ofNamespace i pending members inner ho hinner := by
    refine ⟨b.closeNamespace pending inner, ?_, ?_⟩
    · rw [declaration_of_opens h ho, hinner]
      rfl
    · rw [SyntaxTree.nest_namespaceHeaders]
      rfl
  ofType i header members inner ho hinner := by
    have hbuild : b.declaration i = .ok (closeType header inner) := by
      rw [declaration_of_opens h ho, hinner]
      rfl
    cases ho with
    | ofType hk hclass hkind hd hlisted =>
      obtain ⟨types, rfl⟩ := exists_types hk hclass hinner
      exact ⟨types, rfl, by rw [hbuild, closeType_map]⟩

/-- The stack refines plain recursion: the members of a list are mapped in order, and the fault, if
there is one, is the first in pre-order. -/
theorem declarationsOf_refines (b : Builder) (h : b.tree.arena.Descends) :
    (∀ members, b.declarationsOf members = members.mapM b.declaration) ∧
      b.Recursion b.declaration ∧
      ∀ members, ∃ visits, Walk.Preorder b.tree.declaredMembers members visits ∧
        ∀ e, b.declarationsOf members = .error e ↔ visits.findSome? b.openFault? = some e := by
  have hmap (members : NodeList) : b.declarationsOf members = members.mapM b.declaration :=
    declarationsOf_eq_declarationsFrom h (Nat.lt_succ_self _) members
  refine ⟨hmap, recursion_declaration h, fun members => ?_⟩
  obtain ⟨visits, hvisits⟩ := (declaredMembers_lowers h).exists_preorder members
  have hfault := error?_declarationsFrom h hvisits
    fun i _ => Nat.lt_succ_of_le (b.tree.arena.rank_le_size i)
  refine ⟨visits, hvisits, fun e => ?_⟩
  rw [hmap, ← hfault, Outcome.error?_eq_some_iff]
  rfl

theorem sample_declarationsOf_refines :
    SyntaxTree.sample.arena.Descends ∧ ∃ ds,
      (Builder.mk .sample ∅).declarationsOf [.ofNat 5] = .ok ds ∧
        [NodeIndex.ofNat 5].mapM (Builder.mk .sample ∅).declaration = .ok ds := by
  obtain ⟨ds, hds⟩ : ∃ ds, (Builder.mk .sample ∅).declarationsOf [.ofNat 5] = .ok ds :=
    Outcome.exists_eq_ok (by decide +kernel)
  refine ⟨Arena.sample_descends, ds, hds, ?_⟩
  rw [← (declarationsOf_refines (.mk .sample ∅) Arena.sample_descends).1, hds]

end DeclTree.Builder
