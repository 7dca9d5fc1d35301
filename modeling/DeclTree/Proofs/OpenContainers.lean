import DeclTree.Proofs.Termination
/-!
The two stacks of the build. At any time there is a bucket for each container that is open, and one
for the list of members as a whole; what is still to be visited is a declaration, and has been looked
at before. So none of the loop's fallbacks is ever met: a bucket to take or to put something into is
there, a visited member is there and of a fitting kind, a namespace is what it was when it was
opened, and a type has no declarations below it but types.
-/
namespace DeclTree

namespace Builder

/-- Whether a frame closes a container. -/
def Frame.closes : Frame → Bool
  | .visit _ => false
  | .finishNamespace _ | .finishType _ => true

/-- Whether no type is open. -/
def OutsideTypes (stack : List Frame) : Prop := ∀ header, .finishType header ∉ stack

/-- A member that may wait for its visit: a type of some kind, or a namespace outside types. -/
def Visitable (b : Builder) (i : NodeIndex) (below : List Frame) : Prop :=
  ∃ h, b.tree.arena.get? i = some h ∧
    (h.kind.isNamespace = true ∧ OutsideTypes below ∨ h.kind.isClassLike = true ∨
      h.kind = .delegateDeclaration ∨ h.kind = .enumDeclaration)

/-- Frames and buckets that belong together. The bucket of an open type holds nothing but types, and
an open namespace has not changed since it was visited. -/
inductive InStep (b : Builder) : List Frame → List Bucket → Prop
  | start (bucket : Bucket) : InStep b [] [bucket]
  | visit {i : NodeIndex} {stack : List Frame} {buckets : List Bucket} :
      b.Visitable i stack → InStep b stack buckets → InStep b (.visit i :: stack) buckets
  | finishNamespace {pending : OpenNamespace} {stack : List Frame} {bucket : Bucket}
      {buckets : List Bucket} :
      b.tree.arena.kindOf? pending.node = some pending.kind →
      b.tree.arena.payload? .namespaceDecl pending.node = some pending.parts →
      OutsideTypes stack → InStep b stack buckets →
      InStep b (.finishNamespace pending :: stack) (bucket :: buckets)
  | finishType {header : TypeHeader} {types : List TypeDeclaration} {stack : List Frame}
      {buckets : List Bucket} :
      InStep b stack buckets → InStep b (.finishType header :: stack) (types.map .typeDecl :: buckets)

variable {b : Builder} {i j : NodeIndex} {k : SyntaxKind} {stack : List Frame}
  {buckets : List Bucket} {members : NodeList}

section Preserved

theorem outsideTypes_nil : OutsideTypes [] := fun _ => List.not_mem_nil

theorem outsideTypes_visits : OutsideTypes (members.map .visit ++ stack) ↔ OutsideTypes stack := by
  simp [OutsideTypes]

theorem OutsideTypes.finishNamespace (h : OutsideTypes stack) (pending : OpenNamespace) :
    OutsideTypes (.finishNamespace pending :: stack) := by
  simpa [OutsideTypes] using h

theorem Visitable.outsideTypes (h : b.Visitable i stack) (hk : b.tree.arena.kindOf? i = some k)
    (hnamespace : k.isNamespace = true) : OutsideTypes stack := by
  obtain ⟨hd, hget, hkind⟩ := h
  obtain rfl : hd.kind = k := by simpa [Arena.kindOf?, hget] using hk
  obtain ⟨-, hout⟩ | hclass | hleaf | hleaf := hkind
  · exact hout
  · rw [SyntaxKind.isClassLike_of_isNamespace hnamespace] at hclass
    cases hclass
  all_goals
    rw [hleaf] at hnamespace
    cases hnamespace

/-- What a container declares may be visited: a class or its like declares no namespaces. -/
theorem visitable_of_mem_declaredMembers (hk : b.tree.arena.kindOf? i = some k)
    (hj : j ∈ b.tree.declaredMembers i) (hout : k.isClassLike = false → OutsideTypes stack) :
    b.Visitable j stack := by
  obtain ⟨h, hget, hdecl⟩ := SyntaxTree.mem_declaredMembers hj
  have hkind : b.tree.arena.kindOf? j = some h.kind := by simp [Arena.kindOf?, hget]
  have hdeclares := (List.mem_filter.1 hj).2
  simp only [hk, hkind, SyntaxKind.declares, Bool.and_eq_true] at hdeclares
  refine ⟨h, hget, ?_⟩
  obtain hkind | hkind := (SyntaxKind.isDeclaration_iff h.kind).1 hdecl
  · have hclass : k.isClassLike = false := by simpa [hkind] using hdeclares.2
    exact .inl ⟨hkind, hout hclass⟩
  · exact .inr hkind

theorem InStep.visits (h : b.InStep stack buckets) (hmembers : ∀ j ∈ members, b.Visitable j stack) :
    b.InStep (members.map .visit ++ stack) buckets := by
  induction members with
  | nil => exact h
  | cons j members ih =>
    have hrest := ih fun m hm => hmembers m (List.mem_cons_of_mem j hm)
    obtain ⟨hd, hget, hkind⟩ := hmembers j List.mem_cons_self
    exact .visit ⟨hd, hget, hkind.imp_left (And.imp_right outsideTypes_visits.2)⟩ hrest

/-- A type may go into any bucket, a namespace into one outside types. -/
theorem InStep.put {d : Declaration} (h : b.InStep stack buckets)
    (hd : (∃ ty, d = .typeDecl ty) ∨ OutsideTypes stack) : b.InStep stack (put d buckets) := by
  induction h with
  | start bucket => exact .start (d :: bucket)
  | visit hi _ ih =>
    refine .visit hi (ih (hd.imp_right fun hout header hmem => ?_))
    exact hout header (List.mem_cons_of_mem _ hmem)
  | finishNamespace hk hparts hout h => exact .finishNamespace hk hparts hout h
  | @finishType header types stack buckets h =>
    obtain ⟨ty, rfl⟩ | hout := hd
    · rw [Builder.put, ← List.map_cons]
      exact .finishType h
    · exact absurd List.mem_cons_self (hout header)

theorem InStep.opened {o : Opened} {after : State} (h : b.InStep stack buckets)
    (hi : b.Visitable i stack) (ho : b.Opens i o)
    (hstep : b.step (.visit i) ⟨stack, buckets⟩ = .ok after) : b.InStep after.stack after.buckets := by
  rw [step, ho.openMember_eq] at hstep
  cases ho with
  | ofNamespace hk hnamespace hparts hlisted =>
    cases hstep
    have hout := hi.outsideTypes hk hnamespace
    refine InStep.visits (.finishNamespace hk hparts hout h) fun j hj => ?_
    exact visitable_of_mem_declaredMembers hk hj fun _ => hout.finishNamespace _
  | ofType hk hclass hkind hparts hlisted =>
    cases hstep
    refine InStep.visits (@InStep.finishType b _ [] _ _ h) fun j hj => ?_
    refine visitable_of_mem_declaredMembers hk hj fun hno => ?_
    rw [hclass] at hno
    cases hno
  | ofDelegate hk hparts =>
    cases hstep
    exact h.put (.inl ⟨_, rfl⟩)
  | ofEnum hk hparts =>
    cases hstep
    exact h.put (.inl ⟨_, rfl⟩)

/-- One round of the loop, whatever kind of frame is on top. -/
theorem InStep.round {before after : State} (h : b.InStep before.stack before.buckets)
    (hround : b.Round after before) : b.InStep after.stack after.buckets := by
  obtain ⟨frame, stack, hstack, hstep⟩ := hround
  obtain ⟨frames, buckets⟩ := before
  obtain rfl : frames = frame :: stack := hstack
  cases h with
  | visit hi h =>
    obtain ⟨o, hopen, -⟩ := Outcome.bind_eq_ok hstep
    exact h.opened hi (openMember_eq_ok_iff.1 hopen) hstep
  | finishNamespace hk hparts hout h =>
    cases hstep
    exact h.put (.inr hout)
  | finishType h =>
    cases hstep
    exact h.put (.inl ⟨_, rfl⟩)

end Preserved

/-- What holds whenever the loop looks at its stack, so that it falls back on nothing. -/
structure NoFallback (b : Builder) (s : State) : Prop where
  buckets : s.buckets.length = s.stack.countP Frame.closes + 1
  /-- There is a bucket to put a declaration into, and in the end there is no other. -/
  bucket : ∃ bucket rest, s.buckets = bucket :: rest ∧ (s.stack = [] → rest = [])
  visits : ∀ above i below, s.stack = above ++ .visit i :: below → b.Visitable i below
  /-- A visit that fails has found a fault of the member that is visited: it has no payload, or its own
  list has an entry that is no node or no member. -/
  visitFault : ∀ i below e, s.stack = .visit i :: below →
    b.step (.visit i) ⟨below, s.buckets⟩ = .error e → b.tree.FaultAt i e
  /-- A namespace that is closed is looked up again, and found as it was opened. -/
  finishNamespace : ∀ pending below, s.stack = .finishNamespace pending :: below →
    (∃ h, b.tree.memberHeader .compilationUnit pending.node = .ok h ∧ h.kind = pending.kind) ∧
      b.tree.payload .namespaceDecl pending.kind pending.node = .ok pending.parts ∧
      ∃ bucket outer rest, s.buckets = bucket :: outer :: rest
  /-- All that has been declared below a type is kept. -/
  finishType : ∀ header below, s.stack = .finishType header :: below →
    ∃ types bucket outer rest, s.buckets = bucket :: outer :: rest ∧
      (take s.buckets).1 = types.map .typeDecl ∧
      closeType header (take s.buckets).1 = .typeDecl (.mk header types)

section Kept

theorem InStep.length_eq (h : b.InStep stack buckets) :
    buckets.length = stack.countP Frame.closes + 1 := by
  induction h with
  | start bucket => rfl
  | visit _ _ ih => rw [ih, List.countP_cons_of_neg (by simp [Frame.closes])]
  | finishNamespace _ _ _ _ ih =>
    rw [List.length_cons, ih, List.countP_cons_of_pos (by simp [Frame.closes])]
  | finishType _ ih => rw [List.length_cons, ih, List.countP_cons_of_pos (by simp [Frame.closes])]

theorem InStep.exists_bucket (h : b.InStep stack buckets) : ∃ bucket rest, buckets = bucket :: rest :=
  List.exists_cons_of_length_eq_add_one h.length_eq

theorem InStep.exists_of_append {above below : List Frame} (h : b.InStep (above ++ below) buckets) :
    ∃ outer, b.InStep below outer := by
  induction above generalizing buckets with
  | nil => exact ⟨buckets, h⟩
  | cons frame above ih =>
    rw [List.cons_append] at h
    cases h with
    | visit _ h => exact ih h
    | finishNamespace _ _ _ h => exact ih h
    | finishType h => exact ih h

theorem Visitable.faultAt {below : List Frame} {e : Fault} (h : b.Visitable i below)
    (hstep : b.step (.visit i) ⟨below, buckets⟩ = .error e) : b.tree.FaultAt i e := by
  obtain ⟨hd, hget, hkind⟩ := h
  have hdecl : hd.kind.isDeclaration = true :=
    (SyntaxKind.isDeclaration_iff hd.kind).2 (hkind.imp_left And.left)
  have hfault : b.openFault? i = b.tree.nodeFault? i := by simp [openFault?, hget, hdecl]
  obtain ⟨o, ho, -⟩ | ⟨e', herror, he'⟩ := b.opens_or_fault i
  · rw [step, ho.openMember_eq] at hstep
    cases o <;> cases hstep
  · rw [step, herror] at hstep
    cases hstep
    exact SyntaxTree.nodeFault?_eq_some_iff.1 (hfault ▸ he')

theorem InStep.noFallback {s : State} (h : b.InStep s.stack s.buckets) : b.NoFallback s where
  buckets := h.length_eq
  bucket := by
    obtain ⟨bucket, rest, hbuckets⟩ := h.exists_bucket
    refine ⟨bucket, rest, hbuckets, fun hstack => ?_⟩
    have hlength := h.length_eq
    rw [hbuckets, hstack, List.countP_nil, List.length_cons] at hlength
    exact List.length_eq_zero_iff.1 (by omega)
  visits above i below hstack := by
    rw [hstack] at h
    obtain ⟨outer, h⟩ := h.exists_of_append
    cases h with
    | visit hi _ => exact hi
  visitFault i below e hstack hstep := by
    rw [hstack] at h
    cases h with
    | visit hi _ => exact hi.faultAt hstep
  finishNamespace pending below hstack := by
    obtain ⟨frames, buckets⟩ := s
    obtain rfl : frames = _ := hstack
    cases h with
    | finishNamespace hk hparts hout h =>
      obtain ⟨hd, hget, hkind⟩ := Option.map_eq_some_iff.1 hk
      obtain ⟨outer, rest, rfl⟩ := h.exists_bucket
      exact ⟨⟨hd, by simp [SyntaxTree.memberHeader, hget], hkind⟩,
        by simp [SyntaxTree.payload, hparts], _, outer, rest, rfl⟩
  finishType header below hstack := by
    obtain ⟨frames, buckets⟩ := s
    obtain rfl : frames = _ := hstack
    cases h with
    | @finishType _ types _ _ h =>
      obtain ⟨outer, rest, rfl⟩ := h.exists_bucket
      have hinner : (take (types.map Declaration.typeDecl :: outer :: rest)).1 =
          types.reverse.map .typeDecl := by rw [take, List.map_reverse]
      exact ⟨types.reverse, _, outer, rest, rfl, hinner, by rw [hinner, closeType_map]⟩

end Kept

/-- The states that the loop goes through when it builds the declarations of a list of members. -/
def Passes (b : Builder) (members : NodeList) : State → Prop :=
  Relation.ReflTransGen (fun before after => b.Round after before) ⟨members.map .visit, [[]]⟩

theorem Passes.inStep {s : State} (h : b.Passes members s)
    (hmembers : ∀ j ∈ members, b.Visitable j []) : b.InStep s.stack s.buckets := by
  induction h with
  | refl => simpa using (InStep.start (b := b) []).visits hmembers
  | tail _ hround ih => exact ih.round hround

/-- The loop ends with the one bucket that is left, or with a fault of a member that it visits. -/
theorem Passes.run_cases {s : State} (h : b.Passes members s)
    (hmembers : ∀ j ∈ members, b.Visitable j []) (n : Nat) :
    b.run n s = .error (.endless b.tree.id) ∨
      (∃ bucket, b.Passes members ⟨[], [bucket]⟩ ∧ b.run n s = .ok bucket.reverse) ∨
      ∃ i below buckets e, b.Passes members ⟨.visit i :: below, buckets⟩ ∧ b.tree.FaultAt i e ∧
        b.run n s = .error e := by
  obtain ⟨stack, buckets⟩ := s
  have hin := h.inStep hmembers
  induction n generalizing stack buckets with
  | zero =>
    cases stack with
    | nil =>
      cases hin with
      | start bucket => exact .inr (.inl ⟨bucket, h, rfl⟩)
    | cons frame stack => exact .inl rfl
  | succ n ih =>
    cases stack with
    | nil =>
      cases hin with
      | start bucket => exact .inr (.inl ⟨bucket, h, rfl⟩)
    | cons frame stack =>
      rw [run]
      cases hstep : b.step frame ⟨stack, buckets⟩ with
      | ok after =>
        have hround : b.Round after ⟨frame :: stack, buckets⟩ := ⟨frame, stack, rfl, hstep⟩
        rw [Outcome.ok_bind]
        exact ih after.stack after.buckets (h.tail hround) (hin.round hround)
      | error e =>
        -- Only a visit fails: to close a container takes what is there.
        cases frame with
        | visit i =>
          exact .inr (.inr ⟨i, stack, buckets, e, h, hin.noFallback.visitFault i stack e rfl hstep, rfl⟩)
        | finishNamespace pending => cases hstep
        | finishType header => cases hstep

end Builder

namespace SyntaxTree

/-- A state of the loop while the declarations of a file are built. The stages before are those of
the build, and the loop is the same for scripts and ordinary files. -/
def LoopState (t : SyntaxTree) (b : Builder) (s : Builder.State) : Prop :=
  ∃ hints unit listed, t.checkRoot = .ok () ∧ t.fileHints = .ok hints ∧
    t.payload .compilationUnit .compilationUnit t.root = .ok unit ∧
    t.listMembers .compilationUnit unit.members = .ok listed ∧ b = ⟨t, hints⟩ ∧
    b.Passes (ListedMember.select listed .declaration) s

variable {t : SyntaxTree}

theorem visitable_of_select {hints : AttributeHints} {unit : Syntax.CompilationUnit}
    {listed : List ListedMember} (hroot : t.checkRoot = .ok ())
    (hunit : t.payload .compilationUnit .compilationUnit t.root = .ok unit)
    (hlisted : t.listMembers .compilationUnit unit.members = .ok listed) :
    ∀ j ∈ ListedMember.select listed .declaration, (⟨t, hints⟩ : Builder).Visitable j [] := by
  intro j hj
  have hk := kindOf?_of_checkRoot hroot
  rw [← memberList_of_unit (payload_eq_ok hunit)] at hlisted
  rw [select_eq_declaredMembers hk rfl hlisted] at hj
  exact Builder.visitable_of_mem_declaredMembers hk hj fun _ => Builder.outsideTypes_nil

/-- The result of a file is made of the one bucket in which its loop ends, or its fault is one that a
visit has found. -/
theorem LoopState.declare_cases {b : Builder} {s : Builder.State} (h : t.LoopState b s)
    (options : DeclarationOptions) :
    t.declare options = .error (.endless t.id) ∨
      (∃ unit listed bucket, t.LoopState b ⟨[], [bucket]⟩ ∧ t.declare options =
        .ok (t.rootDeclaration unit (t.rootChildren options ⟨unit, listed, bucket.reverse⟩))) ∨
      ∃ i below buckets e, t.LoopState b ⟨.visit i :: below, buckets⟩ ∧ t.FaultAt i e ∧
        t.declare options = .error e := by
  obtain ⟨hints, unit, listed, hroot, hhints, hunit, hlisted, rfl, -⟩ := h
  have hloop (s : Builder.State)
      (hpasses : (⟨t, hints⟩ : Builder).Passes (ListedMember.select listed .declaration) s) :
      t.LoopState ⟨t, hints⟩ s :=
    ⟨hints, unit, listed, hroot, hhints, hunit, hlisted, rfl, hpasses⟩
  have hdeclare : t.declare options =
      ((⟨t, hints⟩ : Builder).declarationsOf (ListedMember.select listed .declaration) >>= fun built =>
        .ok (t.rootDeclaration unit (t.rootChildren options ⟨unit, listed, built⟩))) := by
    rw [declare_eq, sources, hroot, Outcome.ok_bind, hhints, Outcome.ok_bind, hunit, Outcome.ok_bind,
      hlisted, Outcome.ok_bind, Outcome.bind_assoc]
    rfl
  have hstart : (⟨t, hints⟩ : Builder).Passes (ListedMember.select listed .declaration) _ := .refl
  obtain hrun | ⟨bucket, hpasses, hrun⟩ | ⟨i, below, buckets, e, hpasses, hfault, hrun⟩ :=
    hstart.run_cases (visitable_of_select hroot hunit hlisted)
      (t.arena.walkBudget (ListedMember.select listed .declaration))
  all_goals rw [hdeclare, Builder.declarationsOf, hrun]
  · exact .inl rfl
  · exact .inr (.inl ⟨unit, listed, bucket, hloop _ hpasses, rfl⟩)
  · exact .inr (.inr ⟨i, below, buckets, e, hloop _ hpasses, hfault, rfl⟩)

/-- In whatever state the loop is, in a tree of any form, it falls back on nothing. -/
theorem loopState_noFallback {b : Builder} {s : Builder.State} (h : t.LoopState b s) :
    b.NoFallback s := by
  obtain ⟨hints, unit, listed, hroot, -, hunit, hlisted, rfl, hpasses⟩ := h
  exact (hpasses.inStep (visitable_of_select hroot hunit hlisted)).noFallback

/-- Here the class and the namespace around it are open, and the enum within has been declared. -/
theorem sample_loop_noFallback : ∃ s, SyntaxTree.sample.LoopState ⟨.sample, ∅⟩ s ∧
    s.stack.map Builder.Frame.closes = [true, true] ∧ s.buckets.map List.length = [1, 0, 0] ∧
    Builder.NoFallback ⟨.sample, ∅⟩ s := by
  obtain ⟨s, hpasses, hstack, hbuckets⟩ : ∃ s, (Builder.mk .sample ∅).Passes [.ofNat 5] s ∧
      s.stack.map Builder.Frame.closes = [true, true] ∧ s.buckets.map List.length = [1, 0, 0] :=
    ⟨_, .tail (.tail (.tail .refl ⟨.visit (.ofNat 5), _, rfl, rfl⟩)
      ⟨.visit (.ofNat 3), _, rfl, rfl⟩) ⟨.visit (.ofNat 1), _, rfl, rfl⟩, rfl, rfl⟩
  have hloop : SyntaxTree.sample.LoopState ⟨.sample, ∅⟩ s :=
    ⟨∅, _, _, rfl, rfl, rfl, rfl, rfl, hpasses⟩
  exact ⟨s, hloop, hstack, hbuckets, loopState_noFallback hloop⟩

/-- A file with a class that lists a member that is no node. -/
def sampleDangling : SyntaxTree :=
  let a : Arena := {}
  let a := (a.add .identifier .identifierToken ⟨6, 7⟩ (⟨"C"⟩ : Syntax.Identifier)).2
  let a := (a.add .typeDecl .classDeclaration ⟨0, 10⟩
    ({ identifier := .ofNat 0, members := [.ofNat 40] } : Syntax.TypeDecl)).2
  let a := (a.add .compilationUnit .compilationUnit ⟨0, 10⟩
    ({ members := [.ofNat 1] } : Syntax.CompilationUnit)).2
  ⟨⟨0⟩, "dangling.cs", {}, a, .ofNat 2⟩

/-- A visit does fail with a member that is no node where the visited member lists it: the list is
checked when its container is opened. -/
theorem sampleDangling_visit :
    sampleDangling.LoopState ⟨sampleDangling, ∅⟩ ⟨[.visit (.ofNat 1)], [[]]⟩ ∧
      (Builder.mk sampleDangling ∅).step (.visit (.ofNat 1)) ⟨[], [[]]⟩ =
        .error (.danglingMember ⟨0⟩ (.ofNat 40) .classDeclaration) ∧
      sampleDangling.declare {} = .error (.danglingMember ⟨0⟩ (.ofNat 40) .classDeclaration) :=
  ⟨⟨∅, _, _, rfl, rfl, rfl, rfl, rfl, .refl⟩, rfl, rfl⟩

end SyntaxTree

end DeclTree
