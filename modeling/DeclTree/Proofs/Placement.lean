import DeclTree.Proofs.Assembly
import DeclTree.Proofs.Settlement
import DeclTree.Proofs.Wrappers
/-!
Where the types stand that are made up: which containers have them, in which order, and what they say
of themselves.
-/
namespace DeclTree

namespace SyntaxKind

theorem memberClass?_eq_nonType (k : SyntaxKind) :
    k.memberClass? = some .nonType ↔ k ∈ nonTypeKinds := by
  have hall : ∀ k ∈ all, k.memberClass? = some .nonType ↔ k ∈ nonTypeKinds := by decide +kernel
  exact hall k (mem_all k)

end SyntaxKind

namespace Declaration

/-- A type with nothing below it. -/
def leaf (header : TypeHeader) : Declaration := .typeDecl (.mk header [])

theorem types_map_leaf (headers : List TypeHeader) :
    types (headers.map leaf) = headers.map fun header => .mk header [] := by
  have hleaves : headers.map leaf =
      (headers.map fun header => TypeDeclaration.mk header []).map typeDecl := by
    rw [List.map_map]
    rfl
  rw [hleaves]
  refine types_leaves fun ty hty => ?_
  obtain ⟨header, -, rfl⟩ := List.mem_map.1 hty
  rfl

theorem types_leaf (header : TypeHeader) :
    types [.typeDecl (.mk header [])] = [.mk header []] :=
  types_map_leaf [header]

end Declaration

namespace SyntaxTree
variable (t : SyntaxTree)

/-- Whether a container lists a member of one of some kinds. -/
def listsKind (i : NodeIndex) (kinds : List SyntaxKind) : Bool :=
  (t.memberList i).any fun j => (t.arena.kindOf? j).any fun k => kinds.contains k

/-- How the declarations of some members are laid out. A type holds the types that its node declares.
The namespaces of a dotted name hold one another; the innermost one stands for the node and holds what
its members declare, and then an implicit class if something is listed that calls for one. -/
inductive LaidOut (t : SyntaxTree) : NodeList → List Declaration → Prop
  | nil : LaidOut t [] []
  | ofType {i : NodeIndex} {rest : NodeList} {k : SyntaxKind} {header : TypeHeader}
      {types : List TypeDeclaration} {later : List Declaration} :
      t.arena.kindOf? i = some k → TypeKind.ofSyntax? k = some header.kind →
      header.reference = t.reference i →
      LaidOut t (t.declaredMembers i) (types.map .typeDecl) → LaidOut t rest later →
      LaidOut t (i :: rest) (.typeDecl (.mk header types) :: later)
  | ofNamespace {i : NodeIndex} {rest : NodeList} {k : SyntaxKind} {d : Syntax.Namespace}
      {outer : List NamespaceHeader} {innermost : NamespaceHeader}
      {inner later : List Declaration} {madeUp : List TypeHeader} :
      t.arena.kindOf? i = some k → k.isNamespace = true →
      t.arena.payload? .namespaceDecl i = some d →
      outer.length + 1 = (t.arena.segments d.name).length →
      innermost.reference = t.reference i →
      madeUp.map (·.kind) =
        (if t.listsKind i (.globalStatement :: SyntaxKind.nonTypeKinds) then [.implicitClass]
        else []) →
      LaidOut t (t.declaredMembers i) inner → LaidOut t rest later →
      LaidOut t (i :: rest)
        (Declaration.nest outer [.namespaceDecl innermost (inner ++ madeUp.map .leaf)] ++ later)

variable {t}

section Lists

theorem lists_statement (i : NodeIndex) :
    t.lists i .statement = t.listsKind i [.globalStatement] := by
  rw [lists, listsKind]
  congr 1
  funext j
  rw [memberClassOf?]
  cases t.arena.kindOf? j with
  | none => rfl
  | some k =>
    rw [Bool.eq_iff_iff]
    simpa using k.memberClass?_eq_statement

theorem lists_nonType (i : NodeIndex) :
    t.lists i .nonType = t.listsKind i SyntaxKind.nonTypeKinds := by
  rw [lists, listsKind]
  congr 1
  funext j
  rw [memberClassOf?]
  cases t.arena.kindOf? j with
  | none => rfl
  | some k =>
    rw [Bool.eq_iff_iff]
    simpa using k.memberClass?_eq_nonType

theorem listsKind_cons (i : NodeIndex) (kind : SyntaxKind) (kinds : List SyntaxKind) :
    t.listsKind i (kind :: kinds) = (t.listsKind i [kind] || t.listsKind i kinds) := by
  unfold listsKind
  induction t.memberList i with
  | nil => rfl
  | cons j rest ih =>
    rw [List.any_cons, List.any_cons, List.any_cons, ih]
    cases t.arena.kindOf? j with
    | none => rfl
    | some k => simp [Bool.or_assoc, Bool.or_left_comm]

theorem wrapperKindsIn_namespace (i : NodeIndex) : t.wrapperKindsIn i false =
    if t.listsKind i (.globalStatement :: SyntaxKind.nonTypeKinds) then [.implicitClass] else [] := by
  rw [wrapperKindsIn, lists_statement, lists_nonType,
    listsKind_cons i .globalStatement SyntaxKind.nonTypeKinds, Bool.or_comm]
  simp

theorem wrapperKindsIn_unit (i : NodeIndex) : t.wrapperKindsIn i true =
    (if t.listsKind i [.globalStatement] then [.simpleProgram] else []) ++
      if t.listsKind i SyntaxKind.nonTypeKinds then [.implicitClass] else [] := by
  rw [wrapperKindsIn, lists_statement, lists_nonType]
  simp

end Lists

theorem exists_madeUp {i : NodeIndex} {k : SyntaxKind} {listed : List ListedMember}
    (hlisted : t.listMembers k (t.memberList i) = .ok listed) (members : NodeList)
    (acceptsStatements : Bool) : ∃ madeUp : List TypeHeader,
    madeUp.map (·.kind) = t.wrapperKindsIn i acceptsStatements ∧
      (t.wrappers i members listed acceptsStatements).map Declaration.typeDecl =
        madeUp.map .leaf := by
  refine ⟨(t.wrappers i members listed acceptsStatements).map (·.header), ?_, ?_⟩
  · rw [List.map_map]
    exact map_kind_wrappers hlisted members acceptsStatements
  · rw [List.map_map]
    refine List.map_congr_left fun ty hty => ?_
    obtain ⟨header, children⟩ := ty
    obtain ⟨rfl, -⟩ := mem_wrappers hty
    rfl

theorem LaidOut.ofLeaf {i : NodeIndex} {rest : NodeList} {k : SyntaxKind} {header : TypeHeader}
    {later : List Declaration} (hk : t.arena.kindOf? i = some k)
    (hkind : TypeKind.ofSyntax? k = some header.kind) (hreference : header.reference = t.reference i)
    (hnone : t.declaredMembers i = []) (hlater : t.LaidOut rest later) :
    t.LaidOut (i :: rest) (.leaf header :: later) := by
  have hinner : t.LaidOut (t.declaredMembers i) (([] : List TypeDeclaration).map .typeDecl) := by
    rw [hnone]
    exact .nil
  exact .ofType hk hkind hreference hinner hlater

theorem exists_innermost (i : NodeIndex) (kind : SyntaxKind) (d : Syntax.Namespace) :
    ∃ outer innermost, t.namespaceHeaders i kind d = outer ++ [innermost] ∧
      innermost.reference = t.reference i := by
  rw [namespaceHeaders]
  cases (t.arena.segments d.name).dropLast.map t.outerHeader with
  | nil => exact ⟨[], _, rfl, rfl⟩
  | cons outermost between => exact ⟨_ :: between, _, rfl, rfl⟩

end SyntaxTree

namespace Builder
variable {b : Builder}

theorem Opens.laidOut_cons {i : NodeIndex} {o : Opened} {rest : NodeList}
    {inner later : List Declaration} (ho : b.Opens i o)
    (htypes : ∀ header members, o = .ofType header members →
      ∃ types : List TypeDeclaration, inner = types.map .typeDecl)
    (hinner : b.tree.LaidOut (b.tree.declaredMembers i) inner)
    (hlater : b.tree.LaidOut rest later) :
    b.tree.LaidOut (i :: rest) (b.close o inner :: later) := by
  have hmembers := ho.members_eq
  cases ho with
  | @ofNamespace k d listed hk hnamespace hd hlisted =>
    obtain ⟨outer, innermost, hheaders, hreference⟩ := b.tree.exists_innermost i k d
    have hsegments := b.tree.length_namespaceHeaders i k d
    rw [hheaders, List.length_append, List.length_singleton] at hsegments
    rw [← SyntaxTree.memberList_of_namespace hd] at hlisted
    obtain ⟨madeUp, hkinds, hleaves⟩ := SyntaxTree.exists_madeUp hlisted d.members false
    rw [SyntaxTree.wrapperKindsIn_namespace] at hkinds
    have hchain (inside : List Declaration) : b.tree.namespaceChain i k d inside :: later =
        Declaration.nest outer [.namespaceDecl innermost inside] ++ later := by
      rw [← List.singleton_append, ← SyntaxTree.nest_namespaceHeaders, hheaders,
        Declaration.nest_append]
      rfl
    rw [close, closeNamespace, hleaves, hchain]
    exact .ofNamespace hk hnamespace hd hsegments hreference hkinds hinner hlater
  | ofType hk _ hkind =>
    obtain ⟨types, rfl⟩ := htypes _ _ rfl
    rw [close, closeType_map]
    exact .ofType hk hkind rfl hinner hlater
  | ofDelegate hk => exact .ofLeaf hk rfl rfl hmembers.symm hlater
  | ofEnum hk => exact .ofLeaf hk rfl rfl hmembers.symm hlater

theorem laidOut {depth : Nat} {members : NodeList} {row : List Declaration}
    (hrow : b.declarationsFrom depth members = .ok row) : b.tree.LaidOut members row := by
  refine declarationsFrom_induction (P := b.tree.LaidOut) .nil ?_ hrow
  exact fun _ _ _ _ _ ho htypes hinner hlater => ho.laidOut_cons htypes hinner hlater

end Builder

namespace SyntaxTree.LaidOut
variable {t : SyntaxTree} {members : NodeList} {row : List Declaration}

/-- What members become is read from source. -/
theorem isSynthetic_eq_false (h : t.LaidOut members row) : ∀ d ∈ row, d.isSynthetic = false := by
  induction h with
  | nil => nofun
  | ofType _ hkind _ _ _ _ ih =>
    intro d hd
    obtain rfl | hd := List.mem_cons.1 hd
    · exact TypeKind.isSynthetic_of_ofSyntax? hkind
    · exact ih d hd
  | @ofNamespace _ _ _ _ outer _ _ _ _ _ _ _ _ _ _ _ _ _ ih =>
    intro d hd
    obtain hd | hd := List.mem_append.1 hd
    · cases outer <;> obtain rfl := List.mem_singleton.1 hd <;> rfl
    · exact ih d hd

/-- Where only types are written, nothing is made up at any depth. -/
theorem source_types {types : List TypeDeclaration}
    (h : t.LaidOut members (types.map .typeDecl)) :
    ∀ ty ∈ Declaration.types (types.map .typeDecl), ty.header.kind.isSynthetic = false := by
  generalize hrow : types.map Declaration.typeDecl = row at h
  induction h generalizing types with
  | nil => simp
  | @ofType _ _ _ header inner later _ hkind _ _ _ ihInner ih =>
    cases types with
    | nil => cases hrow
    | cons first others =>
      rw [List.map_cons, List.cons.injEq] at hrow
      obtain ⟨-, rfl⟩ := hrow
      rw [Declaration.types_cons, Declaration.types_typeDecl]
      intro ty hty
      obtain hty | hty := List.mem_append.1 hty
      · obtain rfl | hty := List.mem_cons.1 hty
        · exact TypeKind.isSynthetic_of_ofSyntax? hkind
        · exact ihInner rfl ty hty
      · exact ih rfl ty hty
  | @ofNamespace _ _ _ _ outer =>
    cases types with
    | nil => cases outer <;> cases hrow
    | cons first others => cases outer <;> cases hrow

/-- At any depth, what is made up for namespaces are implicit classes. -/
theorem kind_of_mem (h : t.LaidOut members row) : ∀ ty ∈ Declaration.types row,
    ty.header.kind.isSynthetic = false ∨ ty.header.kind = .implicitClass := by
  induction h with
  | nil => simp
  | ofType _ hkind _ _ _ ihInner ih =>
    intro ty hty
    rw [Declaration.types_cons, Declaration.types_typeDecl] at hty
    obtain hty | hty := List.mem_append.1 hty
    · obtain rfl | hty := List.mem_cons.1 hty
      · exact .inl (TypeKind.isSynthetic_of_ofSyntax? hkind)
      · exact ihInner ty hty
    · exact ih ty hty
  | @ofNamespace _ _ _ _ _ _ _ _ madeUp _ _ _ _ _ hkinds _ _ ihInner ih =>
    intro ty hty
    rw [Declaration.types_append, Declaration.types_nest, Declaration.types_namespaceDecl,
      Declaration.types_append] at hty
    obtain hty | hty := List.mem_append.1 hty
    · obtain hty | hty := List.mem_append.1 hty
      · exact ihInner ty hty
      · rw [Declaration.types_map_leaf] at hty
        obtain ⟨header, hheader, rfl⟩ := List.mem_map.1 hty
        have hkind : header.kind ∈ madeUp.map (·.kind) := List.mem_map_of_mem hheader
        rw [hkinds] at hkind
        split at hkind
        · exact .inr (List.mem_singleton.1 hkind)
        · cases hkind
    · exact ih ty hty

end SyntaxTree.LaidOut

namespace TypeFact

/-- Whether a fact is one about a program made of top-level statements. -/
def isOfProgram : TypeFact → Bool
  | isSimpleProgram | hasAwaitExpressions | isIterator | hasReturnWithExpression => true
  | _ => false

end TypeFact

namespace TypeFacts

def OfMembers (facts : TypeFacts) : Prop := ∀ f ∈ facts, f.isOfProgram = false

theorem ofMembers_when (c : Bool) {f : TypeFact} (hf : f.isOfProgram = false) :
    OfMembers (.when c f) := by
  intro g hg
  obtain ⟨-, rfl⟩ := FlagSet.mem_when.1 hg
  exact hf

theorem OfMembers.union {facts others : TypeFacts} (h : facts.OfMembers) (h' : others.OfMembers) :
    OfMembers (facts ∪ others) := by
  intro f hf
  obtain hf | hf := FlagSet.mem_union.1 hf
  · exact h f hf
  · exact h' f hf

theorem ofMembers_unions {β : Type} {g : β → TypeFacts} {bs : List β}
    (h : ∀ b ∈ bs, OfMembers (g b)) : OfMembers (.unions g bs) := by
  intro f hf
  obtain ⟨b, hb, hf⟩ := FlagSet.mem_unions.1 hf
  exact h b hb f hf

section Members
variable (a : Arena) (members : NodeList)

theorem ofMembers_memberSummary (skipStatements hasPrimaryConstructor : Bool) :
    OfMembers (a.memberSummary members skipStatements hasPrimaryConstructor).facts := by
  rw [Arena.memberSummary_eq_union]
  refine .union (ofMembers_when _ rfl) (ofMembers_unions fun member _ => ?_)
  exact (((ofMembers_when _ rfl).union (ofMembers_when _ rfl)).union (ofMembers_when _ rfl)).union
    (ofMembers_when _ rfl)

theorem ofMembers_enumSummary : OfMembers (a.enumSummary members).facts :=
  (ofMembers_when _ rfl).union (ofMembers_when _ rfl)

end Members

end TypeFacts

/-- What the kind of a type says of the rest of it. Nothing is made up below what is read from source.
What is made up has no type parameters and no attributes, and only the class of a script has types in
it. Facts about top-level statements are those of a program. -/
structure TypeDeclaration.Proper (ty : TypeDeclaration) : Prop where
  source : ty.header.kind.isSynthetic = false →
    ∀ inner ∈ Declaration.types (ty.children.map .typeDecl), inner.header.kind.isSynthetic = false
  plain : ty.header.kind.isSynthetic = true → ty.header.arity = 0 ∧ ty.header.hints = ∅
  leaf : ty.header.kind.isWrapper = true → ty.children = []
  facts : ty.header.kind ≠ .simpleProgram → ty.header.facts.OfMembers

namespace TypeDeclaration

theorem Proper.ofSource {header : TypeHeader} {inner : List TypeDeclaration}
    (hkind : header.kind.isSynthetic = false)
    (hinner : ∀ ty ∈ Declaration.types (inner.map .typeDecl), ty.header.kind.isSynthetic = false)
    (hfacts : header.facts.OfMembers) : Proper (.mk header inner) where
  source _ := hinner
  plain hsynthetic := by
    rw [TypeDeclaration.header, hkind] at hsynthetic
    cases hsynthetic
  leaf hwrapper := by
    have hsynthetic := TypeKind.isSynthetic_of_isWrapper hwrapper
    rw [TypeDeclaration.header, hkind] at hsynthetic
    cases hsynthetic
  facts _ := hfacts

end TypeDeclaration

namespace SyntaxTree
variable {t : SyntaxTree}

theorem proper_simpleProgram (unit first : NodeIndex) (globals : NodeList) :
    (t.simpleProgram unit first globals).Proper where
  source := nofun
  plain _ := ⟨rfl, rfl⟩
  leaf _ := rfl
  facts hkind := absurd rfl hkind

theorem proper_implicitClass (container : NodeIndex) (members : NodeList) (skipStatements : Bool) :
    (t.implicitClass container members skipStatements).Proper where
  source := nofun
  plain _ := ⟨rfl, rfl⟩
  leaf _ := rfl
  facts _ := TypeFacts.ofMembers_memberSummary _ _ _ _

theorem proper_wrappers {i : NodeIndex} {members : NodeList} {listed : List ListedMember}
    {acceptsStatements : Bool} :
    ∀ ty ∈ t.wrappers i members listed acceptsStatements, ty.Proper := by
  intro ty hty
  obtain ⟨first, globals, rfl⟩ | ⟨rfl, -⟩ := mem_wrappers_cases hty
  · exact t.proper_simpleProgram i first globals
  · exact t.proper_implicitClass i members acceptsStatements

theorem proper_scriptType (options : DeclarationOptions) (members : NodeList)
    (inner : List TypeDeclaration) : (t.scriptType options members inner).Proper := by
  refine ⟨?_, fun _ => ⟨rfl, rfl⟩, ?_, fun _ => TypeFacts.ofMembers_memberSummary _ _ _ _⟩
  · cases hs : options.isSubmission <;>
      simp [scriptType, TypeDeclaration.header, hs, TypeKind.isSynthetic]
  · cases hs : options.isSubmission <;>
      simp [scriptType, TypeDeclaration.header, hs, TypeKind.isWrapper]

end SyntaxTree

namespace Builder
variable {b : Builder}

/-- What a member says of itself is proper if what its own members say of themselves is. -/
theorem Opens.proper_close {i : NodeIndex} {o : Opened} {inner : List Declaration}
    (ho : b.Opens i o)
    (htypes : ∀ header members, o = .ofType header members →
      ∃ types : List TypeDeclaration, inner = types.map .typeDecl)
    (hlaid : b.tree.LaidOut (b.tree.declaredMembers i) inner)
    (hinner : ∀ ty ∈ Declaration.types inner, ty.Proper) :
    ∀ ty ∈ Declaration.types [b.close o inner], ty.Proper := by
  intro ty hty
  cases ho with
  | @ofNamespace k d listed =>
    rw [close, closeNamespace, ← SyntaxTree.nest_namespaceHeaders, Declaration.types_nest,
      Declaration.types_append, SyntaxTree.types_wrappers] at hty
    obtain hty | hty := List.mem_append.1 hty
    · exact hinner ty hty
    · exact SyntaxTree.proper_wrappers ty hty
  | ofType _ _ hkind =>
    obtain ⟨types, rfl⟩ := htypes _ _ rfl
    rw [close, closeType_map, Declaration.types_typeDecl] at hty
    obtain rfl | hty := List.mem_cons.1 hty
    · refine .ofSource (TypeKind.isSynthetic_of_ofSyntax? hkind) hlaid.source_types ?_
      exact ((TypeFacts.ofMembers_memberSummary _ _ _ _).union
        (TypeFacts.ofMembers_when _ rfl)).union (TypeFacts.ofMembers_when _ rfl)
    · exact hinner ty hty
  | ofDelegate =>
    rw [close, Declaration.types_leaf] at hty
    obtain rfl := List.mem_singleton.1 hty
    refine .ofSource rfl (by simp) ?_
    exact (TypeFacts.ofMembers_when true rfl).union (TypeFacts.ofMembers_when _ rfl)
  | ofEnum =>
    rw [close, Declaration.types_leaf] at hty
    obtain rfl := List.mem_singleton.1 hty
    refine .ofSource rfl (by simp) ?_
    exact ((TypeFacts.ofMembers_enumSummary _ _).union
      (TypeFacts.ofMembers_when _ rfl)).union (TypeFacts.ofMembers_when _ rfl)

theorem proper {depth : Nat} {members : NodeList} {row : List Declaration}
    (hrow : b.declarationsFrom depth members = .ok row) :
    ∀ ty ∈ Declaration.types row, ty.Proper := by
  have hboth : b.tree.LaidOut members row ∧ ∀ ty ∈ Declaration.types row, ty.Proper := by
    refine declarationsFrom_induction (P := fun members row =>
      b.tree.LaidOut members row ∧ ∀ ty ∈ Declaration.types row, ty.Proper)
      ⟨.nil, by simp⟩ ?_ hrow
    intro i o rest inner later ho htypes ⟨hlaid, hinner⟩ ⟨hlaidLater, hlater⟩
    refine ⟨ho.laidOut_cons htypes hlaid hlaidLater, fun ty hty => ?_⟩
    rw [Declaration.types_cons] at hty
    obtain hty | hty := List.mem_append.1 hty
    · exact ho.proper_close htypes hlaid hinner ty hty
    · exact hlater ty hty
  exact hboth.2

end Builder

namespace RootDeclaration

/-- The types of a file at any depth, in pre-order. -/
def types (r : RootDeclaration) : List TypeDeclaration := r.declarations.filterMap (·.type?)

theorem types_eq (r : RootDeclaration) : r.types = Declaration.types r.children := by
  rw [types, declarations_eq_flatten, Declaration.types]

end RootDeclaration

namespace SyntaxTree

/-- How what is below a root is laid out, from what the members of the unit become. In an ordinary file
the types that are made up come last. The class of a script comes last too, within the namespaces of
its name, and takes in the types. -/
inductive RootLaidOut (t : SyntaxTree) (options : DeclarationOptions) (row : List Declaration) :
    List Declaration → Prop
  | regular {madeUp : List TypeHeader} : t.isScript = false →
      madeUp.map (·.kind) =
        (if t.listsKind t.root [.globalStatement] then [.simpleProgram] else []) ++
          (if t.listsKind t.root SyntaxKind.nonTypeKinds then [.implicitClass] else []) →
      RootLaidOut t options row (row ++ madeUp.map .leaf)
  | script {outer : List NamespaceHeader} {header : TypeHeader} : t.isScript = true →
      header.kind = (if options.isSubmission then .submissionClass else .scriptClass) →
      RootLaidOut t options row (row.filter (·.type?.isNone) ++
        Declaration.nest outer [.typeDecl (.mk header (row.filterMap (·.type?)))])

variable {t : SyntaxTree}

theorem rootLaidOut {s : Sources} (hs : t.sources = .ok s) (options : DeclarationOptions) :
    t.RootLaidOut options s.built (t.rootChildren options s) := by
  obtain ⟨-, -, -, hd, hlisted, -⟩ := sources_stages hs
  cases hscript : t.isScript with
  | false =>
    obtain ⟨madeUp, hkinds, hleaves⟩ := exists_madeUp hlisted s.unit.members true
    rw [wrapperKindsIn_unit] at hkinds
    rw [rootChildren_ordinary hscript, hleaves]
    exact .regular hscript hkinds
  | true =>
    rw [rootChildren_scripted hscript]
    exact .script hscript rfl

theorem LaidOut.filter_kinds {members : NodeList} {row : List Declaration}
    (h : t.LaidOut members row) : ((Declaration.types row).map (·.header.kind)).filter
      (fun kind => kind.isSynthetic && kind != .implicitClass) = [] := by
  refine List.filter_eq_nil_iff.2 fun kind hkind => ?_
  obtain ⟨ty, hty, rfl⟩ := List.mem_map.1 hkind
  obtain hsource | himplicit := h.kind_of_mem ty hty
  · simp [hsource]
  · simp [himplicit]

/-- What is made up, but for implicit classes, is the class of a script or the program of a file. -/
theorem RootLaidOut.filter_kinds {options : DeclarationOptions} {members : NodeList}
    {row children : List Declaration} (hrow : t.LaidOut members row)
    (h : t.RootLaidOut options row children) :
    ((Declaration.types children).map (·.header.kind)).filter
      (fun kind => kind.isSynthetic && kind != .implicitClass) =
        if t.isScript then [if options.isSubmission then .submissionClass else .scriptClass]
        else if t.listsKind t.root [.globalStatement] then [.simpleProgram] else [] := by
  cases h with
  | @regular madeUp hscript hkinds =>
    rw [Declaration.types_append, List.map_append, List.filter_append, hrow.filter_kinds,
      Declaration.types_map_leaf, List.map_map]
    change (madeUp.map (·.kind)).filter _ = _
    rw [hkinds, hscript]
    cases t.listsKind t.root [.globalStatement] <;>
      cases t.listsKind t.root SyntaxKind.nonTypeKinds <;> rfl
  | @script outer header hscript hkind =>
    have hperm := Declaration.types_perm (Declaration.perm_namespaces_types row)
    have hnone := (hperm.map (·.header.kind)).filter
      fun kind => kind.isSynthetic && kind != .implicitClass
    rw [hrow.filter_kinds, Declaration.types_append, List.map_append, List.filter_append] at hnone
    obtain ⟨hnamespaces, htypes⟩ := List.append_eq_nil_iff.1 hnone.eq_nil
    rw [Declaration.types_append, Declaration.types_nest, Declaration.types_typeDecl,
      List.map_append, List.filter_append, hnamespaces, List.map_cons, List.filter_cons, htypes,
      TypeDeclaration.header, hkind, hscript]
    cases options.isSubmission <;> rfl

theorem proper_rootChildren {s : Sources} (options : DeclarationOptions)
    (hbuilt : ∀ ty ∈ Declaration.types s.built, ty.Proper) :
    ∀ ty ∈ Declaration.types (t.rootChildren options s), ty.Proper := by
  intro ty hty
  cases hscript : t.isScript with
  | false =>
    rw [rootChildren_ordinary hscript, Declaration.types_append, types_wrappers] at hty
    obtain hty | hty := List.mem_append.1 hty
    · exact hbuilt ty hty
    · exact proper_wrappers ty hty
  | true =>
    have hperm := Declaration.types_perm (Declaration.perm_namespaces_types s.built)
    rw [Declaration.types_append] at hperm
    rw [rootChildren_scripted hscript, Declaration.types_append, Declaration.types_nest,
      scriptType, Declaration.types_typeDecl] at hty
    obtain hty | hty := List.mem_append.1 hty
    · exact hbuilt ty (hperm.mem_iff.1 (List.mem_append_left _ hty))
    · obtain rfl | hty := List.mem_cons.1 hty
      · exact t.proper_scriptType options _ _
      · exact hbuilt ty (hperm.mem_iff.1 (List.mem_append_right _ hty))

/-- Where the types stand that are made up. The class of a script is there just in scripts, and the
program just in ordinary files that list a statement; at any depth there is no other of them. What
stands where is said by the layout: nothing is made up for members, and what is made up for a container
comes after what its members become. What each type says of itself goes with its kind. -/
theorem declare_placement (t : SyntaxTree) (options : DeclarationOptions) {r : RootDeclaration}
    (hr : t.declare options = .ok r) :
    (r.types.map (·.header.kind)).filter (fun kind => kind.isSynthetic && kind != .implicitClass) =
        (if t.isScript then [if options.isSubmission then .submissionClass else .scriptClass]
        else if t.listsKind t.root [.globalStatement] then [.simpleProgram] else []) ∧
      (∃ row, t.LaidOut (t.declaredMembers t.root) row ∧ (∀ d ∈ row, d.isSynthetic = false) ∧
        t.RootLaidOut options row r.children) ∧
      ∀ ty ∈ r.types, ty.Proper := by
  obtain ⟨s, hs, rfl⟩ := declare_eq_ok hr
  obtain ⟨hints, -, -, -, -, hbuilt⟩ := sources_stages hs
  rw [Builder.declarationsOf_eq_size] at hbuilt
  have hrow : t.LaidOut (t.declaredMembers t.root) s.built := Builder.laidOut hbuilt
  have hroot := rootLaidOut hs options
  rw [RootDeclaration.types_eq, rootDeclaration_children]
  exact ⟨hroot.filter_kinds hrow, ⟨s.built, hrow, hrow.isSynthetic_eq_false, hroot⟩,
    proper_rootChildren options (Builder.proper hbuilt)⟩

/-- A file with a namespace that holds a field, then a statement, and then a field. -/
def sampleStray : SyntaxTree :=
  let a : Arena := {}
  let a := (a.add .identifier .identifierName ⟨10, 11⟩ (⟨"A"⟩ : Syntax.Identifier)).2
  let a := (a.add .field .fieldDeclaration ⟨14, 20⟩ ({} : Syntax.Field)).2
  let a := (a.add .namespaceDecl .namespaceDeclaration ⟨0, 22⟩
    ({ name := .ofNat 0, members := [.ofNat 1] } : Syntax.Namespace)).2
  let a := (a.add .composite .emptyStatement ⟨23, 24⟩ ({} : Syntax.Composite)).2
  let a := (a.add .globalStatement .globalStatement ⟨23, 24⟩
    ({ statement := .ofNat 3 } : Syntax.GlobalStatement)).2
  let a := (a.add .field .fieldDeclaration ⟨25, 31⟩ ({} : Syntax.Field)).2
  let a := (a.add .compilationUnit .compilationUnit ⟨0, 31⟩
    ({ members := [.ofNat 2, .ofNat 4, .ofNat 5] } : Syntax.CompilationUnit)).2
  ⟨⟨0⟩, "stray.cs", {}, a, .ofNat 6⟩

theorem sampleStray_declare_placement : ∃ r, sampleStray.declare {} = .ok r ∧
    (r.types.map (·.header.kind)).filter
      (fun kind => kind.isSynthetic && kind != .implicitClass) = [.simpleProgram] ∧
    (∃ row, sampleStray.LaidOut [.ofNat 2] row ∧ (∀ d ∈ row, d.isSynthetic = false) ∧
      sampleStray.RootLaidOut {} row r.children) ∧
    ∀ ty ∈ r.types, ty.Proper := by
  obtain ⟨r, hr⟩ : ∃ r, sampleStray.declare {} = .ok r := Outcome.exists_eq_ok (by decide +kernel)
  have hmembers : sampleStray.declaredMembers sampleStray.root = [.ofNat 2] := by decide +kernel
  have hstatement : sampleStray.listsKind sampleStray.root [.globalStatement] = true := by
    decide +kernel
  obtain ⟨hkinds, hrow, hproper⟩ := declare_placement sampleStray {} hr
  rw [hstatement] at hkinds
  rw [hmembers] at hrow
  exact ⟨r, hr, hkinds, hrow, hproper⟩

end SyntaxTree

end DeclTree
