import DeclTree.Proofs.Depth
import DeclTree.Proofs.StackRecursion
/-!
Building declarations in arenas whose links may lead anywhere. What recursion settles at any depth it
settles at the size of the arena, and the stack comes to the same result within its budget; where
recursion never comes to an end, neither does the stack.
-/
namespace DeclTree.Builder
variable {b : Builder} {i : NodeIndex} {m n depth : Nat}

/-- The depth is enough to build the declaration of a member, or to find the first fault. -/
def Settled (b : Builder) (depth : Nat) (i : NodeIndex) : Prop :=
  b.declarationFrom depth i ≠ .error (.endless b.tree.id)

theorem openFault?_ne_endless (b : Builder) (i : NodeIndex) :
    b.openFault? i ≠ some (.endless b.tree.id) := by
  intro h
  unfold openFault? at h
  split at h
  · cases h
  · split at h
    · unfold SyntaxTree.nodeFault? at h
      split at h
      · cases h
      · split at h
        · cases h
        · split at h
          · cases h
          · obtain ⟨j, -, hj⟩ := List.exists_of_findSome?_eq_some h
            unfold SyntaxTree.entryFault? at hj
            split at hj
            · cases hj
            · split at hj <;> cases hj
    · cases h

theorem openFault?_of_dangling (hget : b.tree.arena.get? i = none) :
    b.openFault? i = some (.danglingMember b.tree.id i (b.tree.containerKind i)) := by
  simp [openFault?, hget]

theorem settled_of_fault {e : Fault} (hfault : b.openFault? i = some e) (depth : Nat) :
    b.Settled (depth + 1) i := by
  intro h
  rw [declarationFrom_of_fault hfault] at h
  cases h
  exact b.openFault?_ne_endless i hfault

theorem declarationFrom_step
    (hbelow : ∀ j ∈ b.tree.declaredMembers i, b.Settled m j →
      b.declarationFrom n j = b.declarationFrom m j)
    (h : b.Settled (m + 1) i) : b.declarationFrom (n + 1) i = b.declarationFrom (m + 1) i := by
  obtain ⟨o, ho, -⟩ | ⟨e, -, hfault⟩ := b.opens_or_fault i
  · rw [Settled, declarationFrom_of_opens ho] at h
    have hmembers : b.declarationsFrom m o.members ≠ .error (.endless b.tree.id) := by
      intro hfail
      simp [hfail] at h
    have heq : b.declarationsFrom n o.members = b.declarationsFrom m o.members := by
      rw [ho.members_eq] at hmembers ⊢
      exact Outcome.mapM_eq_of_ne hmembers hbelow
    rw [declarationFrom_of_opens ho, declarationFrom_of_opens ho, heq]
  · rw [declarationFrom_of_fault hfault, declarationFrom_of_fault hfault]

theorem Settled.declarationFrom_eq (h : b.Settled m i) (hmn : m ≤ n) :
    b.declarationFrom n i = b.declarationFrom m i := by
  induction m generalizing n i with
  | zero => exact absurd rfl h
  | succ m ih =>
    obtain ⟨n, rfl⟩ : ∃ k, n = k + 1 := ⟨n - 1, by omega⟩
    exact declarationFrom_step (fun j _ hj => ih hj (by omega)) h

theorem Settled.mono (h : b.Settled m i) (hmn : m ≤ n) : b.Settled n i := by
  rw [Settled, h.declarationFrom_eq hmn]
  exact h

theorem Settled.unique (hm : b.Settled m i) (hn : b.Settled n i) :
    b.declarationFrom m i = b.declarationFrom n i :=
  (hm.declarationFrom_eq (Nat.le_max_left m n)).symm.trans
    (hn.declarationFrom_eq (Nat.le_max_right m n))

theorem settled_deepens (b : Builder) :
    b.tree.arena.Deepens fun depth i => b.tree.arena.get? i = none ∨ b.Settled depth i where
  grows := by
    rintro depth i (hget | h)
    · exact .inl hget
    · exact .inr (h.mono (Nat.le_succ depth))
  outside _ _ hget := .inl hget
  step := by
    rintro m n i hbelow (hget | h)
    · exact .inl hget
    · have heq : b.declarationFrom (n + 1) i = b.declarationFrom (m + 1) i := by
        refine declarationFrom_step (fun j hj hsettled => ?_) h
        obtain ⟨hd, hget, -⟩ := SyntaxTree.mem_declaredMembers hj
        obtain hnone | hother := hbelow j (.inr hsettled)
        · rw [hget] at hnone
          cases hnone
        · exact hother.unique hsettled
      refine .inr ?_
      rw [Settled, heq]
      exact h

/-- What recursion settles at some depth it settles one above the size of the arena. -/
theorem Settled.declarationFrom_size (h : b.Settled n i) :
    b.declarationFrom (b.tree.arena.size + 1) i = b.declarationFrom n i := by
  obtain ⟨n, rfl⟩ : ∃ k, n = k + 1 := by
    cases n with
    | zero => exact absurd rfl h
    | succ n => exact ⟨n, rfl⟩
  obtain hget | hsize := b.settled_deepens.done_size (.inr h)
  · have hfault := openFault?_of_dangling hget
    rw [declarationFrom_of_fault hfault, declarationFrom_of_fault hfault]
  · exact (hsize.mono (Nat.le_succ _)).unique h

theorem declarationsFrom_size {members : NodeList}
    (h : b.declarationsFrom n members ≠ .error (.endless b.tree.id)) :
    b.declarationsFrom (b.tree.arena.size + 1) members = b.declarationsFrom n members :=
  Outcome.mapM_eq_of_ne h fun _ _ hi => Settled.declarationFrom_size hi

section Steps
variable {members rest : NodeList} {cost bound : Nat}

theorem WorksOff.of_eq (h : b.WorksOff m [i] cost)
    (heq : b.declarationFrom n i = b.declarationFrom m i) : b.WorksOff n [i] cost := by
  intro steps stack bucket outer
  rw [declarationsFrom_single, heq, ← declarationsFrom_single]
  exact h steps stack bucket outer

/-- A fault of the first member is that of the whole list. -/
theorem WorksOff.cons_of_error {e : Fault} (hfirst : b.WorksOff depth [i] cost)
    (herror : b.declarationFrom depth i = .error e) (rest : NodeList) :
    b.WorksOff depth (i :: rest) cost := by
  intro steps stack bucket outer
  have hrun := hfirst steps (rest.map .visit ++ stack) bucket outer
  rw [declarationsFrom_single, herror] at hrun
  rw [declarationsFrom_cons, herror]
  exact hrun

theorem exists_worksOff_members
    (hsingle : ∀ i ∈ members, b.Settled depth i → ∃ cost ≤ bound, b.WorksOff depth [i] cost)
    (h : b.declarationsFrom depth members ≠ .error (.endless b.tree.id)) :
    ∃ cost ≤ members.length * bound, b.WorksOff depth members cost := by
  induction members with
  | nil => exact ⟨0, Nat.zero_le _, worksOff_nil depth⟩
  | cons i rest ih =>
    rw [declarationsFrom_cons] at h
    have hi : b.Settled depth i := by
      intro hfail
      simp [hfail] at h
    obtain ⟨cost, hcost, hfirst⟩ := hsingle i List.mem_cons_self hi
    obtain ⟨d, hd⟩ | ⟨e, he⟩ := Outcome.ok_or_error (b.declarationFrom depth i)
    · have hrest : b.declarationsFrom depth rest ≠ .error (.endless b.tree.id) := by
        intro hfail
        simp [hd, hfail] at h
      obtain ⟨costRest, hcostRest, hlater⟩ :=
        ih (fun j hj => hsingle j (List.mem_cons_of_mem i hj)) hrest
      refine ⟨cost + costRest, ?_, hfirst.cons hlater⟩
      rw [List.length_cons, Nat.add_mul, Nat.one_mul]
      omega
    · refine ⟨cost, ?_, hfirst.cons_of_error he rest⟩
      rw [List.length_cons, Nat.add_mul, Nat.one_mul]
      omega

/-- What recursion settles the stack works off, in a number of steps that the depth bounds. -/
theorem Settled.exists_worksOff (h : b.Settled depth i) :
    ∃ cost ≤ Nat.pow (b.tree.arena.linkCount + 2) depth, b.WorksOff depth [i] cost := by
  induction depth generalizing i with
  | zero => exact absurd rfl h
  | succ depth ih =>
    have hpow : Nat.pow (b.tree.arena.linkCount + 2) (depth + 1) =
        b.tree.arena.linkCount * Nat.pow (b.tree.arena.linkCount + 2) depth +
          2 * Nat.pow (b.tree.arena.linkCount + 2) depth := by
      rw [← Nat.add_mul]
      exact Nat.mul_comm _ _
    have hpos : 1 ≤ Nat.pow (b.tree.arena.linkCount + 2) depth := Nat.pow_pos (by omega)
    obtain ⟨o, ho, -⟩ | ⟨e, -, hfault⟩ := b.opens_or_fault i
    · have hmembers : b.declarationsFrom depth o.members ≠ .error (.endless b.tree.id) := by
        intro hfail
        rw [Settled, declarationFrom_of_opens ho, hfail] at h
        exact h rfl
      have hlength : o.members.length ≤ b.tree.arena.linkCount := by
        rw [ho.members_eq]
        exact Nat.le_trans (b.tree.declaredMembers_sublist_links i).length_le
          (b.tree.arena.length_links_le i)
      obtain ⟨cost, hcost, hwork⟩ := exists_worksOff_members (fun j _ hj => ih hj) hmembers
      have hwidth : o.members.length * Nat.pow (b.tree.arena.linkCount + 2) depth ≤
          b.tree.arena.linkCount * Nat.pow (b.tree.arena.linkCount + 2) depth :=
        Nat.mul_le_mul_right _ hlength
      cases o with
      | leaf header => exact ⟨1, by omega, worksOff_of_leaf ho depth⟩
      | ofNamespace pending members =>
        exact ⟨1 + (cost + 1), by omega, worksOff_of_namespace ho hwork⟩
      | ofType header members => exact ⟨1 + (cost + 1), by omega, worksOff_of_type ho hwork⟩
    · exact ⟨1, by omega, worksOff_of_fault hfault depth⟩

end Steps

section Ends
variable {members rest : NodeList} {stack : List Frame} {bucket : Bucket} {outer : List Bucket}

/-- Recursion settles some members, and where they are built, `rest` holds of what they become. -/
def Completes (b : Builder) (members : NodeList) (rest : List Declaration → Prop) : Prop :=
  ∃ depth, b.declarationsFrom depth members ≠ .error (.endless b.tree.id) ∧
    ∀ inner, b.declarationsFrom depth members = .ok inner → rest inner

theorem completes_nil {goal : List Declaration → Prop} (h : goal []) : b.Completes [] goal :=
  ⟨0, nofun, fun inner hinner => by cases hinner; exact h⟩

theorem Completes.cons {goal : List Declaration → Prop} (hi : b.Settled depth i)
    (h : ∀ d, b.declarationFrom depth i = .ok d →
      b.Completes rest fun later => goal (d :: later)) : b.Completes (i :: rest) goal := by
  obtain ⟨d, hd⟩ | ⟨e, he⟩ := Outcome.ok_or_error (b.declarationFrom depth i)
  · obtain ⟨depthRest, hrest, hgoal⟩ := h d hd
    have hfirst : b.declarationFrom (max depth depthRest) i = .ok d := by
      rw [hi.declarationFrom_eq (Nat.le_max_left _ _), hd]
    have hlater : b.declarationsFrom (max depth depthRest) rest =
        b.declarationsFrom depthRest rest :=
      Outcome.mapM_eq_of_ne hrest fun _ _ hj =>
        Settled.declarationFrom_eq hj (Nat.le_max_right _ _)
    refine ⟨max depth depthRest, ?_, ?_⟩
    · rw [declarationsFrom_cons, hfirst, hlater, Outcome.ok_bind]
      exact Outcome.bind_ok_ne hrest _
    · intro inner hinner
      rw [declarationsFrom_cons, hfirst, hlater, Outcome.ok_bind] at hinner
      obtain ⟨ds, hds, hinner⟩ := Outcome.bind_eq_ok hinner
      cases hinner
      exact hgoal ds hds
  · refine ⟨depth, ?_, ?_⟩
    · rw [Settled, he] at hi
      rw [declarationsFrom_cons, he, Outcome.error_bind]
      intro hfail
      cases hfail
      exact hi rfl
    · intro inner hinner
      rw [declarationsFrom_cons, he] at hinner
      cases hinner

theorem Completes.settled_of_opens {o : Opened} (ho : b.Opens i o)
    {goal : List Declaration → Prop} (h : b.Completes o.members goal) :
    ∃ depth, b.Settled depth i ∧ ∀ d, b.declarationFrom depth i = .ok d →
      ∃ inner, goal inner ∧ d = b.close o inner := by
  obtain ⟨depth, hmembers, hgoal⟩ := h
  refine ⟨depth + 1, ?_, ?_⟩
  · rw [Settled, declarationFrom_of_opens ho]
    exact Outcome.bind_ok_ne hmembers _
  · intro d hd
    rw [declarationFrom_of_opens ho] at hd
    obtain ⟨inner, hinner, hd⟩ := Outcome.bind_eq_ok hd
    cases hd
    exact ⟨inner, hgoal inner hinner, rfl⟩

theorem Completes.mono {goal goal' : List Declaration → Prop} (h : b.Completes members goal)
    (himp : ∀ inner, goal inner → goal' inner) : b.Completes members goal' := by
  obtain ⟨depth, hmembers, hgoal⟩ := h
  exact ⟨depth, hmembers, fun inner hinner => himp inner (hgoal inner hinner)⟩

/-- The work on the stack comes to an end within some number of steps. -/
def Ends (b : Builder) (n : Nat) (stack : List Frame) (buckets : List Bucket) : Prop :=
  b.run n ⟨stack, buckets⟩ ≠ .error (.endless b.tree.id)

/-- Work that ends below the frame of a container has closed the container. -/
theorem Ends.of_finish {o : Opened} {finish : Frame} {inner : List Declaration}
    (hclose : ∀ stack bucket outer, b.step finish ⟨stack, bucket :: outer⟩ =
      .ok ⟨stack, put (b.close o bucket.reverse) outer⟩)
    (h : b.Ends n (finish :: stack) ((inner.reverse ++ []) :: bucket :: outer)) :
    ∃ k ≤ n, b.Ends k stack ((b.close o inner :: bucket) :: outer) := by
  cases n with
  | zero => exact absurd rfl h
  | succ n =>
    refine ⟨n, Nat.le_succ n, ?_⟩
    rw [Ends, run, hclose, Outcome.ok_bind, List.append_nil, List.reverse_reverse] at h
    exact h

/-- Work that ends has settled the members on top of the stack, and has gone on below them. -/
theorem Ends.completes (h : b.Ends n (members.map .visit ++ stack) (bucket :: outer)) :
    b.Completes members fun inner =>
      ∃ k ≤ n, b.Ends k stack ((inner.reverse ++ bucket) :: outer) := by
  induction n using Nat.strong_induction_on generalizing members stack bucket outer with
  | _ n ih =>
    cases members with
    | nil => exact completes_nil ⟨n, Nat.le_refl n, h⟩
    | cons i rest =>
      cases n with
      | zero => exact absurd rfl h
      | succ n =>
        have hrun : b.run (n + 1) ⟨.visit i :: (rest.map .visit ++ stack), bucket :: outer⟩ ≠
            .error (.endless b.tree.id) := h
        rw [run] at hrun
        obtain ⟨o, ho, -⟩ | ⟨e, -, hfault⟩ := b.opens_or_fault i
        · rw [step, ho.openMember_eq] at hrun
          -- what lies below an opened member is worked off first, and then the frame that closes it
          have hbelow : b.Completes o.members fun inner => ∃ k ≤ n,
              b.Ends k (rest.map .visit ++ stack) ((b.close o inner :: bucket) :: outer) := by
            cases o with
            | leaf header => exact completes_nil ⟨n, Nat.le_refl n, hrun⟩
            | ofNamespace pending members =>
              refine (ih n (Nat.lt_succ_self n) hrun).mono ?_
              rintro inner ⟨k, hk, hends⟩
              obtain ⟨l, hl, hlater⟩ := hends.of_finish (o := .ofNamespace pending members)
                fun _ _ _ => rfl
              exact ⟨l, Nat.le_trans hl hk, hlater⟩
            | ofType header members =>
              refine (ih n (Nat.lt_succ_self n) hrun).mono ?_
              rintro inner ⟨k, hk, hends⟩
              obtain ⟨l, hl, hlater⟩ := hends.of_finish (o := .ofType header members)
                fun _ _ _ => rfl
              exact ⟨l, Nat.le_trans hl hk, hlater⟩
          obtain ⟨depth, hi, hclose⟩ := hbelow.settled_of_opens ho
          refine .cons hi fun d hd => ?_
          obtain ⟨inner, ⟨k, hk, hends⟩, rfl⟩ := hclose d hd
          refine (ih k (Nat.lt_succ_of_le hk) hends).mono ?_
          rintro later ⟨l, hl, hlater⟩
          refine ⟨l, by omega, ?_⟩
          rwa [List.reverse_cons, List.append_assoc]
        · refine .cons (settled_of_fault hfault 0) fun d hd => ?_
          rw [declarationFrom_of_fault hfault] at hd
          cases hd

/-- Wherever the links lead, the stack within its budget gives what recursion gives. -/
theorem declarationsOf_eq_size (b : Builder) (members : NodeList) :
    b.declarationsOf members = b.declarationsFrom (b.tree.arena.size + 1) members := by
  by_cases hends : b.declarationsFrom (b.tree.arena.size + 1) members =
      .error (.endless b.tree.id)
  · rw [hends]
    by_contra hrun
    have hwork : b.Ends (b.tree.arena.walkBudget members) (members.map .visit ++ []) [[]] := by
      rwa [Ends, List.append_nil]
    obtain ⟨depth, hmembers, -⟩ := hwork.completes
    rw [declarationsFrom_size hmembers] at hends
    exact hmembers hends
  · have hsingle : ∀ i ∈ members, b.Settled (b.tree.arena.size + 1) i →
        ∃ cost ≤ Nat.pow (b.tree.arena.linkCount + 2) b.tree.arena.size,
          b.WorksOff (b.tree.arena.size + 1) [i] cost := by
      intro i _ hi
      obtain hget | hsize := b.settled_deepens.done_size (.inr hi)
      · exact ⟨1, Nat.pow_pos (by omega),
          worksOff_of_fault (openFault?_of_dangling hget) b.tree.arena.size⟩
      · obtain ⟨cost, hcost, hwork⟩ := hsize.exists_worksOff
        exact ⟨cost, hcost, hwork.of_eq (hsize.declarationFrom_eq (Nat.le_succ _))⟩
    obtain ⟨cost, hcost, hwork⟩ := exists_worksOff_members hsingle hends
    exact hwork.declarationsOf_eq hcost

end Ends

end DeclTree.Builder
