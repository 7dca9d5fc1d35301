import DeclTree.Declaration.Container
import DeclTree.Proofs.Descent
import DeclTree.Proofs.Outcome
/-!
Lists of members, without reference to how they are checked: which entries may be listed, which of
them become declarations below their container, and what is at fault with a node. The checks find
just these faults.
-/
namespace DeclTree

namespace SyntaxKind

/-- The kinds of node that may be listed as members. -/
def memberKinds : List SyntaxKind := [
  namespaceDeclaration, fileScopedNamespaceDeclaration, classDeclaration, structDeclaration,
  interfaceDeclaration, recordDeclaration, recordStructDeclaration, delegateDeclaration,
  enumDeclaration, globalStatement, incompleteMember, fieldDeclaration, eventFieldDeclaration,
  methodDeclaration, operatorDeclaration, conversionOperatorDeclaration, constructorDeclaration,
  destructorDeclaration, propertyDeclaration, eventDeclaration, indexerDeclaration]

/-- Whether a container declares a member of its list. Types leave the namespaces in them out. -/
def declares (container member : SyntaxKind) : Bool :=
  member.isDeclaration && !(container.isClassLike && member.isNamespace)

theorem memberClass?_isSome (k : SyntaxKind) :
    k.memberClass?.isSome = decide (k ∈ memberKinds) := by
  cases k <;> rfl

theorem memberClass?_eq_declaration (k : SyntaxKind) :
    k.memberClass? = some .declaration ↔ k.isDeclaration = true := by
  cases k <;> decide

theorem memberClass?_eq_statement (k : SyntaxKind) :
    k.memberClass? = some .statement ↔ k = .globalStatement := by
  cases k <;> decide

theorem isDeclaration_iff (k : SyntaxKind) :
    k.isDeclaration = true ↔ k.isNamespace = true ∨ k.isClassLike = true ∨
      k = .delegateDeclaration ∨ k = .enumDeclaration := by
  simp only [isDeclaration, Bool.or_eq_true, beq_iff_eq, or_assoc]
  rw [@or_comm (k = .enumDeclaration)]

theorem isNamespace_cases {k : SyntaxKind} (h : k.isNamespace = true) :
    k = .namespaceDeclaration ∨ k = .fileScopedNamespaceDeclaration := by
  unfold isNamespace at h
  split at h <;> simp_all

theorem isClassLike_cases {k : SyntaxKind} (h : k.isClassLike = true) :
    k = .classDeclaration ∨ k = .structDeclaration ∨ k = .interfaceDeclaration ∨
      k = .recordDeclaration ∨ k = .recordStructDeclaration := by
  unfold isClassLike at h
  split at h <;> simp_all

theorem shape?_of_isNamespace {k : SyntaxKind} (h : k.isNamespace = true) :
    k.shape? = some .namespaceDecl := by
  obtain rfl | rfl := isNamespace_cases h <;> rfl

theorem isNamespace_of_shape? {k : SyntaxKind} (h : k.shape? = some .namespaceDecl) :
    k.isNamespace = true := by
  cases k <;> first | rfl | cases h

theorem isClassLike_of_isNamespace {k : SyntaxKind} (h : k.isNamespace = true) :
    k.isClassLike = false := by
  obtain rfl | rfl := isNamespace_cases h <;> rfl

theorem shape?_of_isClassLike {k : SyntaxKind} (h : k.isClassLike = true) :
    k.shape? = some .typeDecl := by
  obtain rfl | rfl | rfl | rfl | rfl := isClassLike_cases h <;> rfl

end SyntaxKind

namespace SyntaxTree
variable (t : SyntaxTree)

/-- The class of an entry of a member list, if it may be listed. -/
def memberClassOf? (j : NodeIndex) : Option MemberClass :=
  (t.arena.kindOf? j).bind SyntaxKind.memberClass?

/-- What is at fault with an entry of the member list of a container. -/
def entryFault? (container : SyntaxKind) (j : NodeIndex) : Option Fault :=
  match t.arena.get? j with
  | none => some (.danglingMember t.id j container)
  | some h =>
    if h.kind ∈ SyntaxKind.memberKinds then none
    else some (.unexpectedMember t.id h.kind h.span container)

/-- The member list of a compilation unit, a namespace, or a class and its like. -/
def memberList (i : NodeIndex) : NodeList :=
  match t.arena.kindOf? i with
  | some .enumDeclaration => []
  | _ => (t.arena.members? i).getD []

/-- The members of a container that become declarations below its own. -/
def declaredMembers (i : NodeIndex) : NodeList :=
  (t.memberList i).filter fun j =>
    match t.arena.kindOf? i, t.arena.kindOf? j with
    | some container, some member => container.declares member
    | _, _ => false

/-- What is at fault with a node in itself: that it lacks its payload, or else the first entry of
its member list that is at fault. -/
def nodeFault? (i : NodeIndex) : Option Fault :=
  match t.arena.kindOf? i with
  | none => none
  | some k =>
    match k.shape? with
    | none => none
    | some s =>
      match t.arena.payload? s i with
      | none => some (.missingPayload t.id i k s)
      | some _ => (t.memberList i).findSome? (t.entryFault? k)

variable {t}

theorem error?_classify (container : SyntaxKind) (j : NodeIndex) :
    Outcome.error? (t.classify container j) = t.entryFault? container j := by
  unfold classify memberHeader entryFault?
  cases hget : t.arena.get? j with
  | none => rfl
  | some h =>
    have hsome := h.kind.memberClass?_isSome
    cases hclass : h.kind.memberClass? with
    | none =>
      have hnot : h.kind ∉ SyntaxKind.memberKinds := by simpa [hclass] using hsome.symm
      simp [hclass, hnot]
    | some c =>
      have hmem : h.kind ∈ SyntaxKind.memberKinds := by simpa [hclass] using hsome.symm
      simp [hclass, hmem]

theorem classify_eq_ok {container : SyntaxKind} {j : NodeIndex} {m : ListedMember}
    (h : t.classify container j = .ok m) :
    m.node = j ∧ t.memberClassOf? j = some m.memberClass := by
  unfold classify memberHeader at h
  unfold memberClassOf? Arena.kindOf?
  cases hget : t.arena.get? j with
  | none =>
    rw [hget] at h
    cases h
  | some hd =>
    rw [hget, Outcome.ok_bind] at h
    cases hclass : hd.kind.memberClass? with
    | none =>
      rw [hclass] at h
      cases h
    | some c =>
      rw [hclass] at h
      cases h
      exact ⟨rfl, hclass⟩

theorem error?_listMembers (container : SyntaxKind) (members : NodeList) :
    Outcome.error? (t.listMembers container members) =
      members.findSome? (t.entryFault? container) := by
  unfold listMembers
  rw [Outcome.error?_mapM]
  simp only [error?_classify]

/-- A checked list holds its entries in order, each with its class. -/
theorem listMembers_eq_ok {container : SyntaxKind} {members : NodeList}
    {listed : List ListedMember} (h : t.listMembers container members = .ok listed) :
    listed.map (·.node) = members ∧
      ∀ m ∈ listed, t.memberClassOf? m.node = some m.memberClass := by
  unfold listMembers at h
  induction members generalizing listed with
  | nil =>
    cases h
    exact ⟨rfl, fun m hm => by cases hm⟩
  | cons j rest ih =>
    obtain ⟨first, later, hfirst, hlater, rfl⟩ := Outcome.mapM_cons_eq_ok h
    obtain ⟨hnode, hclass⟩ := classify_eq_ok hfirst
    obtain ⟨hnodes, hclasses⟩ := ih hlater
    refine ⟨by rw [List.map_cons, hnode, hnodes], fun m hm => ?_⟩
    obtain rfl | hm := List.mem_cons.1 hm
    · rw [hnode]
      exact hclass
    · exact hclasses m hm

theorem select_eq_filter {container : SyntaxKind} {members : NodeList}
    {listed : List ListedMember} (h : t.listMembers container members = .ok listed)
    (c : MemberClass) :
    ListedMember.select listed c = members.filter fun j => t.memberClassOf? j == some c := by
  obtain ⟨hnodes, hclasses⟩ := listMembers_eq_ok h
  rw [← hnodes, List.filter_map]
  unfold ListedMember.select
  congr 1
  refine List.filter_congr fun m hm => ?_
  simp [hclasses m hm]

theorem memberClassOf?_eq_statement {j : NodeIndex} :
    t.memberClassOf? j = some .statement ↔ t.arena.kindOf? j = some .globalStatement := by
  rw [memberClassOf?]
  cases t.arena.kindOf? j with
  | none => simp
  | some k => simpa using k.memberClass?_eq_statement

theorem memberList_eq_members? {i : NodeIndex} {s : Shape}
    (hshape : (t.arena.kindOf? i).bind SyntaxKind.shape? = some s) (hs : s ≠ .enumDecl) :
    t.memberList i = (t.arena.members? i).getD [] := by
  unfold memberList
  split
  · rename_i hk
    rw [hk] at hshape
    exact absurd (Option.some.inj hshape).symm hs
  · rfl

theorem memberList_of_unit {i : NodeIndex} {d : Syntax.CompilationUnit}
    (hd : t.arena.payload? .compilationUnit i = some d) : t.memberList i = d.members := by
  have hshape := Arena.shape?_of_payload? hd
  rw [memberList_eq_members? hshape (by decide)]
  simp [Arena.members?, hshape, hd]

theorem memberList_of_namespace {i : NodeIndex} {d : Syntax.Namespace}
    (hd : t.arena.payload? .namespaceDecl i = some d) : t.memberList i = d.members := by
  have hshape := Arena.shape?_of_payload? hd
  rw [memberList_eq_members? hshape (by decide)]
  simp [Arena.members?, hshape, hd]

theorem memberList_of_type {i : NodeIndex} {d : Syntax.TypeDecl}
    (hd : t.arena.payload? .typeDecl i = some d) : t.memberList i = d.members := by
  have hshape := Arena.shape?_of_payload? hd
  rw [memberList_eq_members? hshape (by decide)]
  simp [Arena.members?, hshape, hd]

theorem memberList_of_leaf {i : NodeIndex} {k : SyntaxKind} (hk : t.arena.kindOf? i = some k)
    (hleaf : k = .delegateDeclaration ∨ k = .enumDeclaration) : t.memberList i = [] := by
  unfold memberList Arena.members?
  obtain rfl | rfl := hleaf
  · simp [hk, SyntaxKind.shape?, SyntaxKind.isComposite, SyntaxKind.isNamespace,
      SyntaxKind.isClassLike]
  · simp [hk]

theorem nodeFault?_of_missing {i : NodeIndex} {k : SyntaxKind} {s : Shape}
    (hk : t.arena.kindOf? i = some k) (hs : k.shape? = some s)
    (hd : t.arena.payload? s i = none) : t.nodeFault? i = some (.missingPayload t.id i k s) := by
  simp [nodeFault?, hk, hs, hd]

theorem nodeFault?_of_payload {i : NodeIndex} {k : SyntaxKind} {s : Shape} {d : s.Data}
    (hk : t.arena.kindOf? i = some k) (hd : t.arena.payload? s i = some d) :
    t.nodeFault? i = (t.memberList i).findSome? (t.entryFault? k) := by
  have hs := Arena.shape?_of_payload? hd
  rw [hk, Option.bind_some] at hs
  simp [nodeFault?, hk, hs, hd]

theorem memberList_sublist_links (t : SyntaxTree) (i : NodeIndex) :
    (t.memberList i).Sublist (t.arena.links i) := by
  cases hmembers : t.arena.members? i with
  | none =>
    unfold memberList
    split <;> simp [hmembers]
  | some members =>
    have hsub : members.Sublist (t.arena.links i) := by
      unfold Arena.members? at hmembers
      split at hmembers
      · obtain ⟨d, hd, rfl⟩ := Option.map_eq_some_iff.1 hmembers
        rw [Arena.links_of_payload? hd]
        exact List.sublist_append_of_sublist_left (List.sublist_append_right _ _)
      · obtain ⟨d, hd, rfl⟩ := Option.map_eq_some_iff.1 hmembers
        rw [Arena.links_of_payload? hd]
        exact List.sublist_append_right _ _
      · obtain ⟨d, hd, rfl⟩ := Option.map_eq_some_iff.1 hmembers
        rw [Arena.links_of_payload? hd]
        exact List.sublist_append_right _ _
      · obtain ⟨d, hd, rfl⟩ := Option.map_eq_some_iff.1 hmembers
        rw [Arena.links_of_payload? hd]
        exact List.sublist_append_right _ _
      · cases hmembers
    unfold memberList
    split
    · exact List.nil_sublist _
    · simpa [hmembers] using hsub

theorem declaredMembers_sublist_links (t : SyntaxTree) (i : NodeIndex) :
    (t.declaredMembers i).Sublist (t.arena.links i) :=
  List.filter_sublist.trans (t.memberList_sublist_links i)

/-- The nodes that a build comes to: the root, and the declarations that members lead to. -/
def Reached (t : SyntaxTree) (i : NodeIndex) : Prop :=
  Walk.Reaches t.declaredMembers t.root i

theorem mem_declaredMembers {i j : NodeIndex} (hj : j ∈ t.declaredMembers i) :
    ∃ h, t.arena.get? j = some h ∧ h.kind.isDeclaration = true := by
  have hdeclares := (List.mem_filter.1 hj).2
  cases hget : t.arena.get? j with
  | none => cases hk : t.arena.kindOf? i <;> simp_all [Arena.kindOf?]
  | some h =>
    refine ⟨h, rfl, ?_⟩
    have hkind : t.arena.kindOf? j = some h.kind := by simp [Arena.kindOf?, hget]
    rw [hkind] at hdeclares
    cases hk : t.arena.kindOf? i with
    | none => simp [hk] at hdeclares
    | some k =>
      simp only [hk, SyntaxKind.declares, Bool.and_eq_true] at hdeclares
      exact hdeclares.1

theorem mem_visits_iff {visits : NodeList}
    (hvisits : Walk.Preorder t.declaredMembers [t.root] visits) {i : NodeIndex} :
    i ∈ visits ↔ t.Reached i := by
  rw [hvisits.mem_iff]
  simp [Reached]

theorem reached_of_declared {i : NodeIndex} (hi : i ∈ t.declaredMembers t.root) : t.Reached i :=
  Walk.Reaches.step hi (.refl i)

theorem Reached.step {i j : NodeIndex} (hi : t.Reached i) (hj : j ∈ t.declaredMembers i) :
    t.Reached j :=
  Walk.Reaches.tail hi hj

theorem Reached.eq_root_or_declaration {i : NodeIndex} (hi : t.Reached i) :
    i = t.root ∨ ∃ h, t.arena.get? i = some h ∧ h.kind.isDeclaration = true := by
  unfold Reached at hi
  generalize t.root = r at hi
  induction hi with
  | refl => exact .inl rfl
  | step hj _ ih =>
    obtain rfl | hdecl := ih
    · exact .inr (mem_declaredMembers hj)
    · exact .inr hdecl

end SyntaxTree

end DeclTree
