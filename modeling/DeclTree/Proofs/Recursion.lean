import DeclTree.Declaration.Direct
import DeclTree.Proofs.Nesting
import DeclTree.Proofs.Opening
/-!
Building declarations by plain recursion: its equations, how deep it has to go, which fault it meets
first, and an induction over all that it builds.
-/
namespace DeclTree

/-- The members that are to be built below an opened one. -/
def Opened.members : Opened → NodeList
  | leaf _ => []
  | ofNamespace _ members => members
  | ofType _ members => members

namespace Builder
variable {b : Builder} {i : NodeIndex}

/-- The declaration of an opened member, from those of the members below it. -/
def close (b : Builder) : Opened → List Declaration → Declaration
  | .leaf header, _ => .typeDecl (.mk header [])
  | .ofNamespace pending _, inner => b.closeNamespace pending inner
  | .ofType header _, inner => closeType header inner

theorem closeType_map (header : TypeHeader) (types : List TypeDeclaration) :
    closeType header (types.map .typeDecl) = .typeDecl (.mk header types) := by
  have htypes : (types.map Declaration.typeDecl).filterMap (·.type?) = types := by
    rw [List.filterMap_map]
    exact List.filterMap_some
  rw [closeType, htypes]

theorem Opens.members_eq {o : Opened} (ho : b.Opens i o) :
    o.members = b.tree.declaredMembers i := by
  cases ho with
  | ofNamespace => rfl
  | ofType => rfl
  | ofDelegate hk =>
    simp [Opened.members, SyntaxTree.declaredMembers, SyntaxTree.memberList_of_leaf hk (.inl rfl)]
  | ofEnum hk =>
    simp [Opened.members, SyntaxTree.declaredMembers, SyntaxTree.memberList_of_leaf hk (.inr rfl)]

theorem Opens.kindOf?_isSome {o : Opened} (ho : b.Opens i o) :
    (b.tree.arena.kindOf? i).isSome := by
  cases ho <;> simp_all

theorem Opens.rank_pos {o : Opened} (ho : b.Opens i o) : 0 < b.tree.arena.rank i := by
  have hresolves := ho.kindOf?_isSome
  simp only [Arena.kindOf?, Option.isSome_map] at hresolves
  simp [Arena.rank, hresolves]

theorem declarationFrom_of_fault {e : Fault} (hfault : b.openFault? i = some e) (depth : Nat) :
    b.declarationFrom (depth + 1) i = .error e := by
  rw [declarationFrom, openMember_of_fault hfault]
  rfl

theorem declarationFrom_of_opens {o : Opened} (ho : b.Opens i o) (depth : Nat) :
    b.declarationFrom (depth + 1) i =
      (b.declarationsFrom depth o.members >>= fun inner => .ok (b.close o inner)) := by
  rw [declarationFrom, ho.openMember_eq]
  cases o <;> rfl

theorem declarationsFrom_cons (depth : Nat) (i : NodeIndex) (rest : NodeList) :
    b.declarationsFrom depth (i :: rest) =
      (b.declarationFrom depth i >>= fun d =>
        b.declarationsFrom depth rest >>= fun ds => .ok (d :: ds)) :=
  Outcome.mapM_cons i rest

theorem declaredMembers_lowers (h : b.tree.arena.Descends) :
    Walk.Lowers b.tree.declaredMembers b.tree.arena.rank :=
  h.lowers_of_sublist b.tree.declaredMembers_sublist_links

/-- Above the rank of a member a greater depth makes no difference. -/
theorem declarationFrom_depth (h : b.tree.arena.Descends) {n depth depth' : Nat}
    (hi : b.tree.arena.rank i < n) (hdepth : n ≤ depth) (hdepth' : n ≤ depth') :
    b.declarationFrom depth i = b.declarationFrom depth' i := by
  induction n generalizing i depth depth' with
  | zero => exact absurd hi (Nat.not_lt_zero _)
  | succ n ih =>
    obtain ⟨depth, rfl⟩ : ∃ k, depth = k + 1 := ⟨depth - 1, by omega⟩
    obtain ⟨depth', rfl⟩ : ∃ k, depth' = k + 1 := ⟨depth' - 1, by omega⟩
    obtain ⟨o, ho, -⟩ | ⟨e, -, hfault⟩ := b.opens_or_fault i
    · have hbelow : b.declarationsFrom depth o.members = b.declarationsFrom depth' o.members := by
        refine Outcome.mapM_congr fun j hj => ih ?_ (by omega) (by omega)
        rw [ho.members_eq] at hj
        have := declaredMembers_lowers h i j hj
        omega
      rw [declarationFrom_of_opens ho, declarationFrom_of_opens ho, hbelow]
    · rw [declarationFrom_of_fault hfault, declarationFrom_of_fault hfault]

theorem declarationsFrom_single (depth : Nat) :
    b.declarationsFrom depth [i] = (b.declarationFrom depth i >>= fun d => .ok [d]) :=
  declarationsFrom_cons depth i []

/-- The fault of the recursion is the first one in pre-order. -/
theorem error?_declarationsFrom (h : b.tree.arena.Descends) {members visits : NodeList}
    (hvisits : Walk.Preorder b.tree.declaredMembers members visits) {depth : Nat}
    (hdepth : ∀ i ∈ members, b.tree.arena.rank i < depth) :
    Outcome.error? (b.declarationsFrom depth members) = visits.findSome? b.openFault? := by
  induction hvisits generalizing depth with
  | nil => rfl
  | @cons i rest below later _ _ ihBelow ihLater =>
    have hi := hdepth i List.mem_cons_self
    obtain ⟨depth, rfl⟩ : ∃ k, depth = k + 1 := ⟨depth - 1, by omega⟩
    have hlater := ihLater fun j hj => hdepth j (List.mem_cons_of_mem i hj)
    rw [declarationsFrom_cons, List.findSome?_cons]
    obtain ⟨o, ho, hnone⟩ | ⟨e, -, hfault⟩ := b.opens_or_fault i
    · have hbelow : Outcome.error? (b.declarationsFrom depth o.members) =
          below.findSome? b.openFault? := by
        rw [ho.members_eq]
        refine ihBelow fun j hj => ?_
        have := declaredMembers_lowers h i j hj
        omega
      rw [hnone, declarationFrom_of_opens ho, List.findSome?_append, ← hbelow, ← hlater]
      cases b.declarationsFrom depth o.members with
      | error e => rfl
      | ok inner =>
        rw [Outcome.ok_bind, Outcome.ok_bind, Outcome.error?_bind_ok]
        rfl
    · rw [hfault, declarationFrom_of_fault hfault]
      rfl

/-- What is built of a member is built of what it opens as, from what is built one less deep. -/
theorem exists_close_of_declarationFrom {depth : Nat} {d : Declaration}
    (hd : b.declarationFrom depth i = .ok d) : ∃ below o inner, depth = below + 1 ∧ b.Opens i o ∧
      b.declarationsFrom below (b.tree.declaredMembers i) = .ok inner ∧ d = b.close o inner := by
  cases depth with
  | zero => cases hd
  | succ depth =>
    obtain ⟨o, ho, -⟩ | ⟨e, -, hfault⟩ := b.opens_or_fault i
    · rw [declarationFrom_of_opens ho, ho.members_eq] at hd
      obtain ⟨inner, hinner, hd⟩ := Outcome.bind_eq_ok hd
      cases hd
      exact ⟨depth, o, inner, rfl, ho, hinner, rfl⟩
    · rw [declarationFrom_of_fault hfault] at hd
      cases hd

theorem typeDecl_of_declarationFrom {k : SyntaxKind} (hk : b.tree.arena.kindOf? i = some k)
    (hnamespace : k.isNamespace = false) {depth : Nat} {d : Declaration}
    (hd : b.declarationFrom depth i = .ok d) : ∃ ty, d = .typeDecl ty := by
  obtain ⟨-, o, inner, -, ho, -, rfl⟩ := exists_close_of_declarationFrom hd
  cases ho with
  | ofNamespace hk' hnamespace' =>
    rw [hk] at hk'
    cases hk'
    rw [hnamespace] at hnamespace'
    cases hnamespace'
  | ofType => exact ⟨_, rfl⟩
  | ofDelegate => exact ⟨_, rfl⟩
  | ofEnum => exact ⟨_, rfl⟩

theorem exists_types {k : SyntaxKind} (hk : b.tree.arena.kindOf? i = some k)
    (hclass : k.isClassLike = true) {depth : Nat} {inner : List Declaration}
    (hinner : b.declarationsFrom depth (b.tree.declaredMembers i) = .ok inner) :
    ∃ types : List TypeDeclaration, inner = types.map .typeDecl := by
  have hmembers : ∀ j ∈ b.tree.declaredMembers i, ∃ member,
      b.tree.arena.kindOf? j = some member ∧ member.isNamespace = false := by
    intro j hj
    have hdeclares := (List.mem_filter.1 hj).2
    cases hmember : b.tree.arena.kindOf? j with
    | none => simp [hk, hmember] at hdeclares
    | some member =>
      simp only [hk, hmember, SyntaxKind.declares, hclass, Bool.true_and, Bool.and_eq_true,
        Bool.not_eq_true'] at hdeclares
      exact ⟨member, rfl, hdeclares.2⟩
  generalize b.tree.declaredMembers i = members at hinner hmembers
  induction members generalizing inner with
  | nil =>
    cases hinner
    exact ⟨[], rfl⟩
  | cons j rest ih =>
    rw [declarationsFrom_cons] at hinner
    obtain ⟨d, hd, hinner⟩ := Outcome.bind_eq_ok hinner
    obtain ⟨later, hlater, hinner⟩ := Outcome.bind_eq_ok hinner
    cases hinner
    obtain ⟨member, hmember, hnamespace⟩ := hmembers j List.mem_cons_self
    obtain ⟨ty, rfl⟩ := typeDecl_of_declarationFrom hmember hnamespace hd
    obtain ⟨types, rfl⟩ := ih hlater fun k hk => hmembers k (List.mem_cons_of_mem j hk)
    exact ⟨ty :: types, rfl⟩

/-- What holds of all that is built below some members, said of lists of members and of what they
become. Below a type there are only types. -/
theorem declarationsFrom_induction {P : NodeList → List Declaration → Prop} (nil : P [] [])
    (cons : ∀ i o rest inner later, b.Opens i o →
      (∀ header members, o = .ofType header members →
        ∃ types : List TypeDeclaration, inner = types.map .typeDecl) →
      P (b.tree.declaredMembers i) inner → P rest later →
      P (i :: rest) (b.close o inner :: later))
    {depth : Nat} {members : NodeList} {ds : List Declaration}
    (hds : b.declarationsFrom depth members = .ok ds) : P members ds := by
  induction depth generalizing members ds with
  | zero =>
    cases members with
    | nil =>
      cases hds
      exact nil
    | cons i rest =>
      rw [declarationsFrom_cons] at hds
      cases hds
  | succ depth ih =>
    -- what is below a member is built one deeper, and the rest of its list at the same depth
    induction members generalizing ds with
    | nil =>
      cases hds
      exact nil
    | cons i rest ihRest =>
      rw [declarationsFrom_cons] at hds
      obtain ⟨d, hd, hds⟩ := Outcome.bind_eq_ok hds
      obtain ⟨later, hlater, hds⟩ := Outcome.bind_eq_ok hds
      cases hds
      obtain ⟨below, o, inner, hdepth, ho, hinner, rfl⟩ := exists_close_of_declarationFrom hd
      cases hdepth
      have htypes (header : TypeHeader) (members : NodeList)
          (heq : o = .ofType header members) :
          ∃ types : List TypeDeclaration, inner = types.map .typeDecl := by
        subst heq
        cases ho with
        | ofType hk hclass => exact exists_types hk hclass hinner
      exact cons i o rest inner later ho htypes (ih hinner) (ihRest hlater)

end Builder

end DeclTree
