import DeclTree.Proofs.Assembly
import DeclTree.Proofs.NameParts
import DeclTree.Proofs.Wrappers
import Mathlib.Data.List.Forall2
/-!
What a file declares, counted against its nodes: each node of a type becomes one type, each segment
of the name of a namespace becomes one namespace, and nothing else is there but the types that are
made up.
-/
namespace DeclTree

namespace TypeDeclaration

def entry (ty : TypeDeclaration) : SyntaxReference × TypeKind :=
  (ty.header.reference, ty.header.kind)

end TypeDeclaration

namespace SyntaxTree
variable (t : SyntaxTree)

/-- Whether a node is one of a class or its like, a delegate, or an enum. -/
def isTypeNode (i : NodeIndex) : Bool :=
  (t.arena.kindOf? i).any fun k =>
    k.isClassLike || k == .delegateDeclaration || k == .enumDeclaration

/-- What the declaration of a type node is to be: its reference and its kind. -/
def typeAt? (i : NodeIndex) : Option (SyntaxReference × TypeKind) :=
  ((t.arena.kindOf? i).bind TypeKind.ofSyntax?).map (t.reference i, ·)

def nameSegments (i : NodeIndex) : List NameSegment :=
  match t.arena.payload? .namespaceDecl i with
  | some (d : Syntax.Namespace) => t.arena.segments d.name
  | none => []

/-- The segments of the name of a namespace. What is no namespace has none. -/
inductive NamedBy (i : NodeIndex) : List NameSegment → Prop
  | ofNamespace {d : Syntax.Namespace} {segments : List NameSegment} :
      t.arena.payload? .namespaceDecl i = some d → t.arena.Dotted d.name segments →
      NamedBy i segments
  | other : t.arena.payload? .namespaceDecl i = none → NamedBy i []

/-- The kinds of the types that are made up for a node. The class of a script takes in what stands
outside types, so that nothing is made up for its unit. -/
def wrapperKinds (i : NodeIndex) : List TypeKind :=
  match t.arena.kindOf? i with
  | some .compilationUnit => if t.isScript then [] else t.wrapperKindsIn i true
  | some k => if k.isNamespace then t.wrapperKindsIn i false else []
  | none => []

/-- A row of declarations has what is to be made of some nodes, and nothing more. -/
structure Tallies (visits : NodeList) (row : List Declaration) : Prop where
  sourceTypes : (Declaration.sourceTypes row).map (·.entry) = visits.filterMap t.typeAt?
  wrapperKinds : (Declaration.wrapperKinds row).Perm (visits.flatMap t.wrapperKinds)
  sizes : Declaration.sizes row = (visits.filterMap t.typeAt?).length +
    (visits.flatMap t.nameSegments).length + (visits.flatMap t.wrapperKinds).length

variable {t}

theorem wrapperKinds_of_namespace {i : NodeIndex} {k : SyntaxKind}
    (hk : t.arena.kindOf? i = some k) (hnamespace : k.isNamespace = true) :
    t.wrapperKinds i = t.wrapperKindsIn i false := by
  obtain rfl | rfl := SyntaxKind.isNamespace_cases hnamespace <;>
    simp [wrapperKinds, hk, SyntaxKind.isNamespace]

theorem nameSegments_eq_nil {i : NodeIndex} {k : SyntaxKind}
    (hk : t.arena.kindOf? i = some k) (hshape : k.shape? ≠ some .namespaceDecl) :
    t.nameSegments i = [] := by
  unfold nameSegments
  cases hd : t.arena.payload? .namespaceDecl i with
  | none => rfl
  | some d =>
    have hs := Arena.shape?_of_payload? hd
    rw [hk, Option.bind_some] at hs
    exact absurd hs hshape

theorem namedBy_nameSegments (h : t.arena.Descends) (i : NodeIndex) :
    t.NamedBy i (t.nameSegments i) := by
  unfold nameSegments
  cases hd : t.arena.payload? .namespaceDecl i with
  | none => exact .other hd
  | some d =>
    obtain ⟨segments, hdotted⟩ := h.exists_dotted d.name
    refine .ofNamespace hd ?_
    rw [← hdotted.segments_eq] at hdotted
    exact hdotted

theorem NamedBy.nameSegments_eq {i : NodeIndex} {segments : List NameSegment}
    (h : t.NamedBy i segments) : t.nameSegments i = segments := by
  cases h with
  | ofNamespace hd hdotted => simp [nameSegments, hd, hdotted.segments_eq]
  | other hd => simp [nameSegments, hd]

/-- A node has one list of segments. -/
theorem eq_map_nameSegments {visits : NodeList} {names : List (List NameSegment)}
    (h : List.Forall₂ t.NamedBy visits names) : names = visits.map t.nameSegments := by
  induction h with
  | nil => rfl
  | cons hnamed _ ih => rw [List.map_cons, hnamed.nameSegments_eq, ← ih]

namespace Tallies
variable {visits others : NodeList} {row more : List Declaration} {i : NodeIndex} {k : SyntaxKind}

theorem nil : t.Tallies [] [] := ⟨by simp, by simp, by simp [Declaration.sizes]⟩

theorem append (h : t.Tallies visits row) (h' : t.Tallies others more) :
    t.Tallies (visits ++ others) (row ++ more) where
  sourceTypes := by
    rw [Declaration.sourceTypes_append, List.map_append, h.sourceTypes, h'.sourceTypes,
      List.filterMap_append]
  wrapperKinds := by
    rw [Declaration.wrapperKinds_append, List.flatMap_append]
    exact h.wrapperKinds.append h'.wrapperKinds
  sizes := by
    rw [Declaration.sizes_append, h.sizes, h'.sizes]
    simp only [List.filterMap_append, List.flatMap_append, List.length_append]
    omega

theorem withWrappers {listed : List ListedMember} {acceptsStatements : Bool}
    (h : t.Tallies visits row) (hk : t.arena.kindOf? i = some k)
    (hkind : TypeKind.ofSyntax? k = none)
    (hwrappers : t.wrapperKinds i = t.wrapperKindsIn i acceptsStatements)
    (hlisted : t.listMembers k (t.memberList i) = .ok listed) (members : NodeList) :
    let whole := row ++ (t.wrappers i members listed acceptsStatements).map .typeDecl
    (Declaration.sourceTypes whole).map (·.entry) = (i :: visits).filterMap t.typeAt? ∧
      (Declaration.wrapperKinds whole).Perm ((i :: visits).flatMap t.wrapperKinds) ∧
      (t.nameSegments i).length + Declaration.sizes whole =
        ((i :: visits).filterMap t.typeAt?).length +
          ((i :: visits).flatMap t.nameSegments).length +
          ((i :: visits).flatMap t.wrapperKinds).length := by
  have hentry : t.typeAt? i = none := by simp [typeAt?, hk, hkind]
  refine ⟨?_, ?_, ?_⟩
  · rw [Declaration.sourceTypes_append, sourceTypes_wrappers, List.append_nil, h.sourceTypes,
      List.filterMap_cons_none hentry]
  · rw [Declaration.wrapperKinds_append, wrapperKinds_wrappers hlisted, List.flatMap_cons,
      hwrappers]
    exact List.perm_append_comm.trans (h.wrapperKinds.append_left _)
  · rw [Declaration.sizes_append, sizes_wrappers hlisted, h.sizes,
      List.filterMap_cons_none hentry, List.flatMap_cons, List.flatMap_cons, hwrappers]
    simp only [List.length_append]
    omega

theorem ofNamespace {d : Syntax.Namespace} {listed : List ListedMember}
    (h : t.Tallies visits row) (hk : t.arena.kindOf? i = some k)
    (hnamespace : k.isNamespace = true) (hd : t.arena.payload? .namespaceDecl i = some d)
    (hlisted : t.listMembers k d.members = .ok listed) :
    t.Tallies (i :: visits) [t.namespaceChain i k d
      (row ++ (t.wrappers i d.members listed false).map .typeDecl)] := by
  have hkind : TypeKind.ofSyntax? k = none := by
    obtain rfl | rfl := SyntaxKind.isNamespace_cases hnamespace <;> rfl
  rw [← memberList_of_namespace hd] at hlisted
  obtain ⟨hentries, hkinds, hsizes⟩ := h.withWrappers hk hkind
    (wrapperKinds_of_namespace hk hnamespace) hlisted d.members
  rw [← nest_namespaceHeaders]
  refine ⟨?_, ?_, ?_⟩
  · rw [Declaration.sourceTypes_nest]
    exact hentries
  · rw [Declaration.wrapperKinds_nest]
    exact hkinds
  · have hsegments : t.nameSegments i = t.arena.segments d.name := by simp [nameSegments, hd]
    rw [Declaration.sizes_nest, length_namespaceHeaders, ← hsegments]
    exact hsizes

theorem ofType {kind : TypeKind} {header : TypeHeader} {types : List TypeDeclaration}
    (h : t.Tallies visits (types.map .typeDecl)) (hk : t.arena.kindOf? i = some k)
    (hkind : TypeKind.ofSyntax? k = some kind) (hentry : header.reference = t.reference i)
    (hheader : header.kind = kind) :
    t.Tallies (i :: visits) [.typeDecl (.mk header types)] := by
  have hwritten : kind.isSynthetic = false := TypeKind.isSynthetic_of_ofSyntax? hkind
  have hwrapper : kind.isWrapper = false := TypeKind.isWrapper_of_ofSyntax? hkind
  have hnode : t.typeAt? i = some (t.reference i, kind) := by simp [typeAt?, hk, hkind]
  have hwrappers : t.wrapperKinds i = [] := by
    unfold SyntaxTree.wrapperKinds
    rw [hk]
    cases k <;> first | rfl | cases hkind
  have hsegments : t.nameSegments i = [] := by
    refine nameSegments_eq_nil hk ?_
    cases k <;> first | decide | cases hkind
  refine ⟨?_, ?_, ?_⟩
  · rw [List.filterMap_cons_some hnode, ← h.sourceTypes, Declaration.sourceTypes,
      Declaration.types_typeDecl]
    simp [TypeDeclaration.header, TypeDeclaration.entry, hheader, hwritten, hentry,
      Declaration.sourceTypes]
  · rw [List.flatMap_cons, hwrappers, List.nil_append]
    refine .trans (.of_eq ?_) h.wrapperKinds
    rw [Declaration.wrapperKinds, Declaration.types_typeDecl]
    simp [TypeDeclaration.header, hheader, hwrapper, Declaration.wrapperKinds]
  · have hsizes := h.sizes
    rw [Declaration.sizes_map_typeDecl] at hsizes
    rw [List.filterMap_cons_some hnode, List.flatMap_cons, List.flatMap_cons, hwrappers, hsegments]
    simp only [Declaration.sizes, Declaration.size, TypeDeclaration.size, hsizes,
      List.length_cons, List.nil_append]
    omega

end Tallies

end SyntaxTree

namespace Builder
variable {b : Builder}

/-- What is built from some members tallies with the nodes that they lead to. -/
theorem exists_tallies {depth : Nat} {members : NodeList} {row : List Declaration}
    (hrow : b.declarationsFrom depth members = .ok row) :
    ∃ visits, Walk.Preorder b.tree.declaredMembers members visits ∧
      b.tree.Tallies visits row := by
  refine declarationsFrom_induction (P := fun members row =>
    ∃ visits, Walk.Preorder b.tree.declaredMembers members visits ∧ b.tree.Tallies visits row)
    ⟨[], .nil, .nil⟩ ?_ hrow
  intro i o rest inner later ho htypes ⟨below, hbelow, hinner⟩ ⟨after, hafter, hlater⟩
  refine ⟨_, .cons hbelow hafter, ?_⟩
  suffices hone : b.tree.Tallies (i :: below) [b.close o inner] from hone.append hlater
  have hmembers := ho.members_eq
  cases ho with
  | ofNamespace hk hnamespace hd hlisted => exact hinner.ofNamespace hk hnamespace hd hlisted
  | ofType hk _ hkind =>
    obtain ⟨types, rfl⟩ := htypes _ _ rfl
    rw [close, closeType_map]
    exact hinner.ofType hk hkind rfl rfl
  | ofDelegate hk =>
    rw [← hmembers] at hbelow
    cases hbelow
    exact SyntaxTree.Tallies.nil.ofType hk rfl rfl rfl
  | ofEnum hk =>
    rw [← hmembers] at hbelow
    cases hbelow
    exact SyntaxTree.Tallies.nil.ofType hk rfl rfl rfl

end Builder

namespace RootDeclaration
variable (r : RootDeclaration)

/-- The types of a file that are read from source, in pre-order. -/
def sourceTypes : List TypeDeclaration :=
  (r.declarations.filterMap (·.type?)).filter fun ty => !ty.header.kind.isSynthetic

/-- The kinds of the types of a file that are made up for what stands outside types. -/
def wrapperKinds : List TypeKind :=
  ((r.declarations.filterMap (·.type?)).map (·.header.kind)).filter (·.isWrapper)

theorem sourceTypes_eq : r.sourceTypes = Declaration.sourceTypes r.children := by
  rw [sourceTypes, declarations_eq_flatten]
  rfl

theorem wrapperKinds_eq : r.wrapperKinds = Declaration.wrapperKinds r.children := by
  rw [wrapperKinds, declarations_eq_flatten]
  rfl

end RootDeclaration

namespace SyntaxTree
variable {t : SyntaxTree}

/-- What is below the root tallies with the nodes that the root leads to. The class of a script comes
on top, and it takes the types out of their order. -/
theorem exists_tallies (h : t.arena.Descends) {s : Sources} (hs : t.sources = .ok s)
    (options : DeclarationOptions) : ∃ visits,
    Walk.Preorder t.declaredMembers [t.root] visits ∧
      ((Declaration.sourceTypes (t.rootChildren options s)).map (·.entry)).Perm
        (visits.filterMap t.typeAt?) ∧
      (t.isScript = false → (Declaration.sourceTypes (t.rootChildren options s)).map (·.entry) =
        visits.filterMap t.typeAt?) ∧
      (Declaration.wrapperKinds (t.rootChildren options s)).Perm
        (visits.flatMap t.wrapperKinds) ∧
      Declaration.sizes (t.rootChildren options s) = (visits.filterMap t.typeAt?).length +
        (visits.flatMap t.nameSegments).length + (visits.flatMap t.wrapperKinds).length +
        if t.isScript then (Text.segments options.scriptClassName).length else 0 := by
  obtain ⟨hints, hk, hd, hlisted, hbuilt⟩ := sources_eq_ok h hs
  obtain ⟨below, hbelow, htallies⟩ : ∃ below,
      Walk.Preorder t.declaredMembers (t.declaredMembers t.root) below ∧ t.Tallies below s.built :=
    Builder.exists_tallies hbuilt
  have hsegments : t.nameSegments t.root = [] := nameSegments_eq_nil hk (by decide)
  refine ⟨t.root :: (below ++ []), .cons hbelow .nil, ?_⟩
  rw [List.append_nil]
  cases hscript : t.isScript with
  | false =>
    have hwrappers : t.wrapperKinds t.root = t.wrapperKindsIn t.root true := by
      simp [wrapperKinds, hk, hscript]
    obtain ⟨hentries, hkinds, hsizes⟩ :=
      htallies.withWrappers hk rfl hwrappers hlisted s.unit.members
    have hchildren : t.rootChildren options s =
        s.built ++ (t.wrappers t.root s.unit.members s.listed true).map .typeDecl := by
      simp [rootChildren, hscript]
    rw [hsegments] at hsizes
    rw [hchildren]
    refine ⟨.of_eq hentries, fun _ => hentries, hkinds, ?_⟩
    simpa using hsizes
  | true =>
    have hwrappers : t.wrapperKinds t.root = [] := by simp [wrapperKinds, hk, hscript]
    have hentry : t.typeAt? t.root = none := by simp [typeAt?, hk, TypeKind.ofSyntax?]
    have hchildren : t.rootChildren options s = s.built.filter (·.type?.isNone) ++
        [t.scriptClass options s.unit.members (s.built.filterMap (·.type?))] := by
      simp [rootChildren, hscript]
    -- the class of the script takes the types out of the row, and so only their order changes
    have hperm := Declaration.perm_namespaces_types s.built
    rw [hchildren, List.filterMap_cons_none hentry, List.flatMap_cons, List.flatMap_cons,
      hwrappers, hsegments, List.nil_append, List.nil_append]
    refine ⟨?_, fun hfalse => (by cases hfalse), ?_, ?_⟩
    · rw [Declaration.sourceTypes_append, sourceTypes_scriptClass,
        ← Declaration.sourceTypes_append, ← htallies.sourceTypes]
      exact (Declaration.sourceTypes_perm hperm).map _
    · rw [Declaration.wrapperKinds_append, wrapperKinds_scriptClass,
        ← Declaration.wrapperKinds_append]
      exact (Declaration.wrapperKinds_perm hperm).trans htallies.wrapperKinds
    · have hsizes := Declaration.sizes_perm hperm
      rw [Declaration.sizes_append, htallies.sizes] at hsizes
      rw [Declaration.sizes_append, sizes_scriptClass, if_pos rfl]
      omega

/-- No node is listed twice, be it by one container or by two, among those that a build comes to. -/
def MembersDistinct (t : SyntaxTree) : Prop :=
  (∀ i, t.Reached i → (t.memberList i).Nodup) ∧
    ∀ i j m, t.Reached i → t.Reached j → m ∈ t.memberList i → m ∈ t.memberList j → i = j

/-- It is enough that no node is listed twice in the whole arena. -/
theorem membersDistinct_of_nodup
    (h : ((List.range t.arena.size).flatMap fun n => t.memberList (.ofNat n)).Nodup) :
    t.MembersDistinct := by
  obtain ⟨hone, htwo⟩ := List.pairwise_flatMap.1 h
  have hrange {i m : NodeIndex} (hm : m ∈ t.memberList i) : i.toNat < t.arena.size := by
    have hlinks := (t.memberList_sublist_links i).subset hm
    cases hget : t.arena.get? i with
    | none =>
      rw [Arena.links_eq_nil_of_get? hget] at hlinks
      cases hlinks
    | some hd => exact Arena.lt_size_of_get? hget
  have hlt {i j m : NodeIndex} (hi : m ∈ t.memberList i) (hj : m ∈ t.memberList j) :
      ¬ i.toNat < j.toNat := by
    intro hij
    have hpair := List.pairwise_iff_getElem.1 htwo i.toNat j.toNat (by simpa using hrange hi)
      (by simpa using hrange hj) hij
    simp only [List.getElem_range, Arena.ofNat_toNat] at hpair
    exact hpair m hi m hj rfl
  refine ⟨fun i _ => ?_, fun i j m _ _ hi hj => ?_⟩
  · cases hlist : t.memberList i with
    | nil => exact .nil
    | cons m rest =>
      have hi := hone i.toNat (List.mem_range.2 (hrange (hlist ▸ List.mem_cons_self)))
      rw [Arena.ofNat_toNat, hlist] at hi
      exact hi
  · have := hlt hi hj
    have := hlt hj hi
    rw [← Arena.ofNat_toNat i, ← Arena.ofNat_toNat j, show i.toNat = j.toNat by omega]

theorem typeAt?_isSome (i : NodeIndex) : (t.typeAt? i).isSome = t.isTypeNode i := by
  have hall : ∀ k ∈ SyntaxKind.all, (TypeKind.ofSyntax? k).isSome =
      (k.isClassLike || k == .delegateDeclaration || k == .enumDeclaration) := by
    decide +kernel
  unfold typeAt? isTypeNode
  cases hk : t.arena.kindOf? i with
  | none => rfl
  | some k => simpa using hall k (SyntaxKind.mem_all k)

theorem map_node_typeAt? (visits : NodeList) :
    (visits.filterMap t.typeAt?).map (·.1.node) = visits.filter t.isTypeNode := by
  induction visits with
  | nil => rfl
  | cons i rest ih =>
    have hsome := typeAt?_isSome (t := t) i
    cases hentry : t.typeAt? i with
    | none =>
      rw [hentry] at hsome
      rw [List.filterMap_cons_none hentry, ih, List.filter_cons_of_neg (by simp [← hsome])]
    | some entry =>
      rw [hentry] at hsome
      rw [List.filterMap_cons_some hentry, List.map_cons, ih,
        List.filter_cons_of_pos (by simp [← hsome])]
      unfold typeAt? at hentry
      obtain ⟨kind, -, rfl⟩ := Option.map_eq_some_iff.1 hentry
      rfl

theorem resolve?_of_typeAt? {i : NodeIndex} {entry : SyntaxReference × TypeKind}
    (hentry : t.typeAt? i = some entry) :
    ∃ node, t.resolve? entry.1 = some node ∧ TypeKind.ofSyntax? node.kind = some entry.2 := by
  unfold typeAt? at hentry
  obtain ⟨kind, hkind, rfl⟩ := Option.map_eq_some_iff.1 hentry
  obtain ⟨k, hk, hof⟩ := Option.bind_eq_some_iff.1 hkind
  obtain ⟨node, hnode, rfl⟩ := Option.map_eq_some_iff.1 hk
  exact ⟨node, by rw [resolve?_reference, hnode], hof⟩

theorem MembersDistinct.nodup (h : t.MembersDistinct)
    (hroot : t.arena.kindOf? t.root = some .compilationUnit) {visits : NodeList}
    (hvisits : Walk.Preorder t.declaredMembers [t.root] visits) : visits.Nodup := by
  have hlisted {i j : NodeIndex} (hj : j ∈ t.declaredMembers i) : j ∈ t.memberList i :=
    (List.mem_filter.1 hj).1
  refine hvisits.nodup (by simp) ?_ ?_ ?_
  · -- what is declared is a declaration, and the root is none
    intro i _ r hr hmem
    rw [List.mem_singleton.1 hr] at hmem
    obtain ⟨hd, hget, hdecl⟩ := mem_declaredMembers hmem
    simp only [Arena.kindOf?, hget, Option.map_some, Option.some.injEq] at hroot
    rw [hroot] at hdecl
    cases hdecl
  · exact fun i hi => (h.1 i ((mem_visits_iff hvisits).1 hi)).filter _
  · exact fun i hi j hj m hmi hmj => h.2 i j m ((mem_visits_iff hvisits).1 hi)
      ((mem_visits_iff hvisits).1 hj) (hlisted hmi) (hlisted hmj)

/-- No declaration is lost, and none is there twice. The types that are read from source are, each
once, the type nodes that members lead to, in pre-order but for scripts. Each leads back to its node.
Beside them there is a namespace for each segment of a name, what is made up for containers, and the
class of a script with the namespaces around it. -/
theorem declare_census (t : SyntaxTree) (options : DeclarationOptions) (h : t.arena.Descends)
    (hdistinct : t.MembersDistinct) {r : RootDeclaration} (hr : t.declare options = .ok r) :
    ∃ visits names, List.Forall₂ t.NamedBy visits names ∧ Walk.Preorder t.declaredMembers [t.root] visits ∧ visits.Nodup ∧
      (∀ i, i ∈ visits ↔ t.Reached i) ∧
      (r.sourceTypes.map (·.header.reference.node)).Nodup ∧
      (∀ i, i ∈ r.sourceTypes.map (·.header.reference.node) ↔
        t.Reached i ∧ t.isTypeNode i = true) ∧
      (t.isScript = false →
        r.sourceTypes.map (·.header.reference.node) = visits.filter t.isTypeNode) ∧
      (∀ ty ∈ r.sourceTypes, ∃ node, t.resolve? ty.header.reference = some node ∧
        TypeKind.ofSyntax? node.kind = some ty.header.kind) ∧
      r.wrapperKinds.Perm (visits.flatMap t.wrapperKinds) ∧
      r.declarationCount = (visits.filter t.isTypeNode).length +
        names.flatten.length + r.wrapperKinds.length +
        if t.isScript then (Text.segments options.scriptClassName).length else 0 := by
  obtain ⟨s, hs, rfl⟩ := declare_eq_ok hr
  obtain ⟨visits, hvisits, hperm, hordered, hwrappers, hsizes⟩ := exists_tallies h hs options
  obtain ⟨-, hroot, -⟩ := sources_eq_ok h hs
  have hnodup := hdistinct.nodup hroot hvisits
  have hnodes (tys : List TypeDeclaration) :
      tys.map (·.header.reference.node) = (tys.map (·.entry)).map (·.1.node) := by
    rw [List.map_map]
    rfl
  rw [RootDeclaration.sourceTypes_eq, RootDeclaration.wrapperKinds_eq,
    RootDeclaration.declarationCount_eq_sizes, rootDeclaration_children, hnodes]
  have hsame : ((Declaration.sourceTypes (t.rootChildren options s)).map (·.entry)).map
      (·.1.node) |>.Perm (visits.filter t.isTypeNode) := by
    rw [← map_node_typeAt?]
    exact hperm.map _
  have hnamed : List.Forall₂ t.NamedBy visits (visits.map t.nameSegments) := by
    rw [List.forall₂_map_right_iff, List.forall₂_same]
    exact fun i _ => namedBy_nameSegments h i
  refine ⟨visits, _, hnamed, hvisits, hnodup, fun i => mem_visits_iff hvisits, ?_, fun i => ?_, ?_,
    ?_, hwrappers, ?_⟩
  · exact hsame.nodup_iff.2 (hnodup.filter _)
  · refine hsame.mem_iff.trans ?_
    rw [List.mem_filter, mem_visits_iff hvisits]
  · intro hregular
    rw [← map_node_typeAt?, ← hordered hregular]
  · intro ty hty
    have hmem := hperm.mem_iff.1 (List.mem_map_of_mem hty)
    obtain ⟨i, -, hi⟩ := List.mem_filterMap.1 hmem
    exact resolve?_of_typeAt? hi
  · have hlength : (visits.filter t.isTypeNode).length = (visits.filterMap t.typeAt?).length := by
      rw [← map_node_typeAt?, List.length_map]
    rw [hlength, hwrappers.length_eq, ← List.flatMap_def]
    exact hsizes

theorem sampleMixed_declare_census : ∃ r, sampleMixed.declare {} = .ok r ∧
    (r.sourceTypes.map (·.header.reference.node)).Nodup ∧
    (∀ i, i ∈ r.sourceTypes.map (·.header.reference.node) ↔
      sampleMixed.Reached i ∧ sampleMixed.isTypeNode i = true) ∧
    r.declarationCount = 6 := by
  have hdistinct : sampleMixed.MembersDistinct := membersDistinct_of_nodup (by decide +kernel)
  obtain ⟨r, hr⟩ : ∃ r, sampleMixed.declare {} = .ok r := Outcome.exists_eq_ok (by decide +kernel)
  obtain ⟨visits, names, hnamed, hvisits, -, -, hnodup, hmem, -, -, hwrappers, hcount⟩ :=
    declare_census sampleMixed {} Arena.sampleMixed_descends hdistinct hr
  have hexpected : Walk.Preorder sampleMixed.declaredMembers [sampleMixed.root]
      [.ofNat 11, .ofNat 1, .ofNat 7, .ofNat 6] :=
    Walk.preorder_of_visited? (n := 9) (by decide +kernel)
  obtain rfl := hvisits.unique hexpected
  obtain rfl := eq_map_nameSegments hnamed
  refine ⟨r, hr, hnodup, hmem, ?_⟩
  -- two classes, two segments, and the types that are made up for the method and the statement
  rw [hcount, hwrappers.length_eq]
  decide +kernel

end SyntaxTree

end DeclTree
