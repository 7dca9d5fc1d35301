import DeclTree.Declaration.Frames
import DeclTree.Proofs.Listing
/-!
What it takes to open a member, and what is found when it is opened: a namespace with the types made
up for it, a class or its like, a delegate, or an enum. A member cannot be opened just if it has a
fault of its own.
-/
namespace DeclTree

namespace SyntaxTree
variable {t : SyntaxTree}

theorem declares_eq (container : SyntaxKind) {j : NodeIndex} {member : SyntaxKind}
    (hj : t.arena.kindOf? j = some member) :
    container.declares member = (t.memberClassOf? j == some .declaration &&
      !(container.isClassLike && ((t.arena.kindOf? j).map (·.isNamespace)).getD false)) := by
  have hclass := member.memberClass?_eq_declaration
  cases hd : member.isDeclaration with
  | true =>
    have : t.memberClassOf? j = some .declaration := by
      simp [memberClassOf?, hj, hclass.2 hd]
    simp [SyntaxKind.declares, this, hj, hd]
  | false =>
    have : t.memberClassOf? j ≠ some .declaration := by
      simp only [memberClassOf?, hj, Option.bind_some]
      intro hc
      rw [hclass.1 hc] at hd
      cases hd
    simp [SyntaxKind.declares, this, hd]

theorem declaredMembers_eq {i : NodeIndex} {k : SyntaxKind} (hk : t.arena.kindOf? i = some k) :
    t.declaredMembers i =
      ((t.memberList i).filter fun j => t.memberClassOf? j == some .declaration).filter fun j =>
        !(k.isClassLike && ((t.arena.kindOf? j).map (·.isNamespace)).getD false) := by
  rw [List.filter_filter]
  refine List.filter_congr fun j _ => ?_
  cases hj : t.arena.kindOf? j with
  | none => simp [hk, memberClassOf?, hj]
  | some member =>
    simp only [hk]
    rw [declares_eq k hj, hj, Bool.and_comm]

/-- The members that a checked list declares, where namespaces count. -/
theorem select_eq_declaredMembers {i : NodeIndex} {k : SyntaxKind} {listed : List ListedMember}
    (hk : t.arena.kindOf? i = some k) (hclass : k.isClassLike = false)
    (hlisted : t.listMembers k (t.memberList i) = .ok listed) :
    ListedMember.select listed .declaration = t.declaredMembers i := by
  rw [declaredMembers_eq hk, select_eq_filter hlisted]
  simp [hclass]

end SyntaxTree

namespace TypeKind

theorem ofSyntax?_of_isClassLike {k : SyntaxKind} (h : k.isClassLike = true) :
    ∃ kind, ofSyntax? k = some kind ∧ kind ≠ delegateType ∧ kind ≠ enumType := by
  obtain rfl | rfl | rfl | rfl | rfl := SyntaxKind.isClassLike_cases h <;>
    exact ⟨_, rfl, by decide, by decide⟩

theorem ofSyntax?_eq_none {k : SyntaxKind} (h : k.isDeclaration = false) :
    ofSyntax? k = none := by
  cases k <;> first | rfl | cases h

/-- Kinds that are read from source are none of the made-up ones. -/
theorem isSynthetic_of_ofSyntax? {k : SyntaxKind} {kind : TypeKind}
    (h : ofSyntax? k = some kind) : kind.isSynthetic = false := by
  unfold ofSyntax? at h
  split at h <;> cases h <;> rfl

end TypeKind

namespace Builder
variable {b : Builder} {i : NodeIndex}

/-- What a member is found to be. -/
inductive Opens (b : Builder) (i : NodeIndex) : Opened → Prop
  | ofNamespace {k : SyntaxKind} {d : Syntax.Namespace} {listed : List ListedMember} :
      b.tree.arena.kindOf? i = some k → k.isNamespace = true →
      b.tree.arena.payload? .namespaceDecl i = some d →
      b.tree.listMembers k d.members = .ok listed →
      Opens b i (.ofNamespace ⟨i, k, d, b.tree.wrappers i d.members listed false⟩
        (b.tree.declaredMembers i))
  | ofType {k : SyntaxKind} {kind : TypeKind} {d : Syntax.TypeDecl}
      {listed : List ListedMember} :
      b.tree.arena.kindOf? i = some k → k.isClassLike = true →
      TypeKind.ofSyntax? k = some kind →
      b.tree.arena.payload? .typeDecl i = some d →
      b.tree.listMembers k d.members = .ok listed →
      Opens b i (.ofType (b.tree.classHeader b.fileHints i kind d) (b.tree.declaredMembers i))
  | ofDelegate {d : Syntax.Delegate} :
      b.tree.arena.kindOf? i = some .delegateDeclaration →
      b.tree.arena.payload? .delegate i = some d →
      Opens b i (.leaf (b.tree.delegateHeader b.fileHints i d))
  | ofEnum {d : Syntax.EnumDecl} :
      b.tree.arena.kindOf? i = some .enumDeclaration →
      b.tree.arena.payload? .enumDecl i = some d →
      Opens b i (.leaf (b.tree.enumHeader b.fileHints i d))

/-- Why a member cannot be opened. What is no declaration is blamed on the parent of the node. -/
def openFault? (b : Builder) (i : NodeIndex) : Option Fault :=
  match b.tree.arena.get? i with
  | none => some (.danglingMember b.tree.id i (b.tree.containerKind i))
  | some h =>
    if h.kind.isDeclaration then b.tree.nodeFault? i
    else some (.unexpectedMember b.tree.id h.kind h.span (b.tree.containerKind i))

theorem openMember_of_namespace {h : Header} (hget : b.tree.arena.get? i = some h)
    (hk : h.kind.isNamespace = true) : b.openMember i = b.openNamespace i h.kind := by
  simp [openMember, SyntaxTree.memberHeader, hget, hk]

theorem openMember_of_class {h : Header} (hget : b.tree.arena.get? i = some h)
    (hk : h.kind.isClassLike = true) : ∃ kind, TypeKind.ofSyntax? h.kind = some kind ∧
      b.openMember i = b.openType i h.kind kind := by
  obtain ⟨kind, hkind, hdelegate, henum⟩ := TypeKind.ofSyntax?_of_isClassLike hk
  have hnamespace : h.kind.isNamespace = false := by
    obtain he | he | he | he | he := SyntaxKind.isClassLike_cases hk <;> rw [he] <;> rfl
  refine ⟨kind, hkind, ?_⟩
  simp only [openMember, SyntaxTree.memberHeader, hget, Outcome.ok_bind, hnamespace, hkind]
  cases kind with
  | delegateType => exact absurd rfl hdelegate
  | enumType => exact absurd rfl henum
  | _ => rfl

theorem openMember_of_delegate {h : Header} (hget : b.tree.arena.get? i = some h)
    (hk : h.kind = .delegateDeclaration) : b.openMember i = b.openDelegate i h.kind := by
  simp [openMember, SyntaxTree.memberHeader, hget, hk, SyntaxKind.isNamespace,
    TypeKind.ofSyntax?]

theorem openMember_of_enum {h : Header} (hget : b.tree.arena.get? i = some h)
    (hk : h.kind = .enumDeclaration) : b.openMember i = b.openEnum i h.kind := by
  simp [openMember, SyntaxTree.memberHeader, hget, hk, SyntaxKind.isNamespace,
    TypeKind.ofSyntax?]

theorem openMember_of_dangling (hget : b.tree.arena.get? i = none) :
    b.openMember i = .error (.danglingMember b.tree.id i (b.tree.containerKind i)) := by
  simp [openMember, SyntaxTree.memberHeader, hget]

theorem openMember_of_other {h : Header} (hget : b.tree.arena.get? i = some h)
    (hk : h.kind.isDeclaration = false) : b.openMember i =
      .error (.unexpectedMember b.tree.id h.kind h.span (b.tree.containerKind i)) := by
  have hnamespace : h.kind.isNamespace = false := by
    cases hn : h.kind.isNamespace with
    | false => rfl
    | true => simp [SyntaxKind.isDeclaration, hn] at hk
  simp [openMember, SyntaxTree.memberHeader, hget, hnamespace, TypeKind.ofSyntax?_eq_none hk]

theorem Opens.openMember_eq {o : Opened} (ho : b.Opens i o) : b.openMember i = .ok o := by
  cases ho with
  | @ofNamespace k d listed hk hnamespace hd hlisted =>
    obtain ⟨h, hget, rfl⟩ := Option.map_eq_some_iff.1 hk
    have hclass := SyntaxKind.isClassLike_of_isNamespace hnamespace
    rw [← SyntaxTree.memberList_of_namespace hd] at hlisted
    have hselect := SyntaxTree.select_eq_declaredMembers hk hclass hlisted
    rw [SyntaxTree.memberList_of_namespace hd] at hlisted
    rw [openMember_of_namespace hget hnamespace]
    simp [openNamespace, SyntaxTree.payload, hd, hlisted, hselect]
  | @ofType k kind d listed hk hclass hkind hd hlisted =>
    obtain ⟨h, hget, rfl⟩ := Option.map_eq_some_iff.1 hk
    obtain ⟨kind', hkind', hopen⟩ := openMember_of_class hget hclass
    rw [hkind] at hkind'
    cases hkind'
    rw [hopen, SyntaxTree.declaredMembers_eq hk, SyntaxTree.memberList_of_type hd]
    simp [openType, SyntaxTree.payload, hd, hlisted, SyntaxTree.select_eq_filter hlisted, hclass]
  | ofDelegate hk hd =>
    obtain ⟨h, hget, hkind⟩ := Option.map_eq_some_iff.1 hk
    rw [openMember_of_delegate hget hkind]
    simp [openDelegate, SyntaxTree.payload, hd]
  | ofEnum hk hd =>
    obtain ⟨h, hget, hkind⟩ := Option.map_eq_some_iff.1 hk
    rw [openMember_of_enum hget hkind]
    simp [openEnum, SyntaxTree.payload, hd]

section Attempt
variable {h : Header}

/-- Whether a declaration opens is decided by its payload and by the entries of its member list. -/
theorem opens_or_fault_of_namespace (hget : b.tree.arena.get? i = some h)
    (hkind : h.kind.isNamespace = true) :
    (∃ o, b.Opens i o ∧ b.tree.nodeFault? i = none) ∨
      ∃ e, b.openMember i = .error e ∧ b.tree.nodeFault? i = some e := by
  have hk : b.tree.arena.kindOf? i = some h.kind := by simp [Arena.kindOf?, hget]
  rw [openMember_of_namespace hget hkind, openNamespace, SyntaxTree.payload]
  cases hd : b.tree.arena.payload? .namespaceDecl i with
  | none =>
    rw [SyntaxTree.nodeFault?_of_missing hk (SyntaxKind.shape?_of_isNamespace hkind) hd]
    exact .inr ⟨_, rfl, rfl⟩
  | some d =>
    rw [SyntaxTree.nodeFault?_of_payload hk hd, SyntaxTree.memberList_of_namespace hd,
      ← SyntaxTree.error?_listMembers]
    cases hlisted : b.tree.listMembers h.kind d.members with
    | error e => exact .inr ⟨e, by simp [hlisted], rfl⟩
    | ok listed => exact .inl ⟨_, .ofNamespace hk hkind hd hlisted, rfl⟩

theorem opens_or_fault_of_class (hget : b.tree.arena.get? i = some h)
    (hkind : h.kind.isClassLike = true) :
    (∃ o, b.Opens i o ∧ b.tree.nodeFault? i = none) ∨
      ∃ e, b.openMember i = .error e ∧ b.tree.nodeFault? i = some e := by
  have hk : b.tree.arena.kindOf? i = some h.kind := by simp [Arena.kindOf?, hget]
  obtain ⟨kind, hof, hopen⟩ := openMember_of_class hget hkind
  rw [hopen, openType, SyntaxTree.payload]
  cases hd : b.tree.arena.payload? .typeDecl i with
  | none =>
    rw [SyntaxTree.nodeFault?_of_missing hk (SyntaxKind.shape?_of_isClassLike hkind) hd]
    exact .inr ⟨_, rfl, rfl⟩
  | some d =>
    rw [SyntaxTree.nodeFault?_of_payload hk hd, SyntaxTree.memberList_of_type hd,
      ← SyntaxTree.error?_listMembers]
    cases hlisted : b.tree.listMembers h.kind d.members with
    | error e => exact .inr ⟨e, by simp [hlisted], rfl⟩
    | ok listed => exact .inl ⟨_, .ofType hk hkind hof hd hlisted, rfl⟩

theorem opens_or_fault_of_delegate (hget : b.tree.arena.get? i = some h)
    (hkind : h.kind = .delegateDeclaration) :
    (∃ o, b.Opens i o ∧ b.tree.nodeFault? i = none) ∨
      ∃ e, b.openMember i = .error e ∧ b.tree.nodeFault? i = some e := by
  have hk : b.tree.arena.kindOf? i = some .delegateDeclaration := by
    simp [Arena.kindOf?, hget, hkind]
  rw [openMember_of_delegate hget hkind, hkind, openDelegate, SyntaxTree.payload]
  cases hd : b.tree.arena.payload? .delegate i with
  | none =>
    rw [SyntaxTree.nodeFault?_of_missing hk rfl hd]
    exact .inr ⟨_, rfl, rfl⟩
  | some d =>
    rw [SyntaxTree.nodeFault?_of_payload hk hd, SyntaxTree.memberList_of_leaf hk (.inl rfl)]
    exact .inl ⟨_, .ofDelegate hk hd, rfl⟩

theorem opens_or_fault_of_enum (hget : b.tree.arena.get? i = some h)
    (hkind : h.kind = .enumDeclaration) :
    (∃ o, b.Opens i o ∧ b.tree.nodeFault? i = none) ∨
      ∃ e, b.openMember i = .error e ∧ b.tree.nodeFault? i = some e := by
  have hk : b.tree.arena.kindOf? i = some .enumDeclaration := by
    simp [Arena.kindOf?, hget, hkind]
  rw [openMember_of_enum hget hkind, hkind, openEnum, SyntaxTree.payload]
  cases hd : b.tree.arena.payload? .enumDecl i with
  | none =>
    rw [SyntaxTree.nodeFault?_of_missing hk rfl hd]
    exact .inr ⟨_, rfl, rfl⟩
  | some d =>
    rw [SyntaxTree.nodeFault?_of_payload hk hd, SyntaxTree.memberList_of_leaf hk (.inr rfl)]
    exact .inl ⟨_, .ofEnum hk hd, rfl⟩

/-- A member opens, or it has a fault and gives it. -/
theorem opens_or_fault (b : Builder) (i : NodeIndex) :
    (∃ o, b.Opens i o ∧ b.openFault? i = none) ∨
      ∃ e, b.openMember i = .error e ∧ b.openFault? i = some e := by
  cases hget : b.tree.arena.get? i with
  | none => exact .inr ⟨_, openMember_of_dangling hget, by simp [openFault?, hget]⟩
  | some h =>
    cases hdecl : h.kind.isDeclaration with
    | false => exact .inr ⟨_, openMember_of_other hget hdecl, by simp [openFault?, hget, hdecl]⟩
    | true =>
      have hfault : b.openFault? i = b.tree.nodeFault? i := by simp [openFault?, hget, hdecl]
      rw [hfault]
      obtain hkind | hkind | hkind | hkind := (SyntaxKind.isDeclaration_iff h.kind).1 hdecl
      · exact opens_or_fault_of_namespace hget hkind
      · exact opens_or_fault_of_class hget hkind
      · exact opens_or_fault_of_delegate hget hkind
      · exact opens_or_fault_of_enum hget hkind

end Attempt

theorem openMember_eq_ok_iff {o : Opened} : b.openMember i = .ok o ↔ b.Opens i o := by
  refine ⟨fun hopen => ?_, Opens.openMember_eq⟩
  obtain ⟨o', ho, -⟩ | ⟨e, herror, -⟩ := b.opens_or_fault i
  · rw [ho.openMember_eq] at hopen
    cases hopen
    exact ho
  · rw [herror] at hopen
    cases hopen

theorem error?_openMember (b : Builder) (i : NodeIndex) :
    Outcome.error? (b.openMember i) = b.openFault? i := by
  obtain ⟨o, ho, hnone⟩ | ⟨e, herror, hsome⟩ := b.opens_or_fault i
  · rw [ho.openMember_eq, hnone, Outcome.error?_ok]
  · rw [herror, hsome, Outcome.error?_error]

theorem openMember_of_fault {e : Fault} (hfault : b.openFault? i = some e) :
    b.openMember i = .error e :=
  Outcome.error?_eq_some_iff.1 (b.error?_openMember i ▸ hfault)

end Builder

end DeclTree
