import DeclTree.Proofs.MemberUnion
import DeclTree.Proofs.Placement
/-!
Which types count as having members that are no types. How members are classed decides what is made
up for a container; what they contribute decides what its type says of itself. The two are read off
the kinds of the members separately, and here they are found to agree, wherever a type comes from.
-/
namespace DeclTree

/-- What an opened member says of types: of itself, or of those that are made up for it. -/
def Opened.headers : Opened → List TypeHeader
  | leaf header => [header]
  | ofNamespace pending _ => pending.wrappers.map (·.header)
  | ofType header _ => [header]

namespace Builder
variable {b : Builder} {P : TypeHeader → Prop}

theorem Opens.forall_header {i : NodeIndex} {o : Opened} {inner : List Declaration}
    (ho : b.Opens i o)
    (htypes : ∀ header members, o = .ofType header members →
      ∃ types : List TypeDeclaration, inner = types.map .typeDecl)
    (hheaders : ∀ header ∈ o.headers, P header)
    (hinner : ∀ ty ∈ Declaration.types inner, P ty.header) :
    ∀ ty ∈ Declaration.types [b.close o inner], P ty.header := by
  intro ty hty
  cases ho with
  | ofNamespace =>
    rw [close, closeNamespace, ← SyntaxTree.nest_namespaceHeaders, Declaration.types_nest,
      Declaration.types_append, SyntaxTree.types_wrappers] at hty
    obtain hty | hty := List.mem_append.1 hty
    · exact hinner ty hty
    · exact hheaders _ (List.mem_map_of_mem hty)
  | ofType =>
    obtain ⟨types, rfl⟩ := htypes _ _ rfl
    rw [close, closeType_map, Declaration.types_typeDecl] at hty
    obtain rfl | hty := List.mem_cons.1 hty
    · exact hheaders _ List.mem_cons_self
    · exact hinner ty hty
  | ofDelegate | ofEnum =>
    rw [close, Declaration.types_leaf] at hty
    obtain rfl := List.mem_singleton.1 hty
    exact hheaders _ List.mem_cons_self

/-- What holds of the headers of every opened member holds of all types that are built. -/
theorem forall_header (hopens : ∀ i o, b.Opens i o → ∀ header ∈ o.headers, P header)
    {depth : Nat} {members : NodeList} {row : List Declaration}
    (hrow : b.declarationsFrom depth members = .ok row) :
    ∀ ty ∈ Declaration.types row, P ty.header := by
  refine declarationsFrom_induction (P := fun _ row => ∀ ty ∈ Declaration.types row, P ty.header)
    (by simp) ?_ hrow
  intro i o rest inner later ho htypes hinner hlater ty hty
  rw [Declaration.types_cons] at hty
  obtain hty | hty := List.mem_append.1 hty
  · exact ho.forall_header htypes (hopens i o ho) hinner ty hty
  · exact hlater ty hty

end Builder

namespace SyntaxTree
variable {t : SyntaxTree} {P : TypeHeader → Prop}

theorem forall_header_rootChildren {s : Sources} (options : DeclarationOptions)
    (hbuilt : ∀ ty ∈ Declaration.types s.built, P ty.header)
    (hwrappers : ∀ ty ∈ t.wrappers t.root s.unit.members s.listed true, P ty.header)
    (hscript : ∀ inner, P (t.scriptType options s.unit.members inner).header) :
    ∀ ty ∈ Declaration.types (t.rootChildren options s), P ty.header := by
  intro ty hty
  cases hkind : t.isScript with
  | false =>
    rw [rootChildren_ordinary hkind, Declaration.types_append, types_wrappers] at hty
    obtain hty | hty := List.mem_append.1 hty
    · exact hbuilt ty hty
    · exact hwrappers ty hty
  | true =>
    have hperm := Declaration.types_perm (Declaration.perm_namespaces_types s.built)
    rw [Declaration.types_append] at hperm
    rw [rootChildren_scripted hkind, Declaration.types_append, Declaration.types_nest,
      scriptType, Declaration.types_typeDecl] at hty
    obtain hty | hty := List.mem_append.1 hty
    · exact hbuilt ty (hperm.mem_iff.1 (List.mem_append_left _ hty))
    · obtain rfl | hty := List.mem_cons.1 hty
      · exact hscript _
      · exact hbuilt ty (hperm.mem_iff.1 (List.mem_append_right _ hty))

end SyntaxTree

/-- Whether types of this kind take what their node lists as members of their own. -/
def TypeKind.ownsListed : TypeKind → Bool
  | classType | structType | interfaceType | recordType | recordStructType | scriptClass
  | submissionClass => true
  | _ => false

namespace SyntaxTree

/-- Why a type has members that are no types, from the node that it stands for and its kind. -/
inductive HasNonTypeMembers (t : SyntaxTree) (i : NodeIndex) : TypeKind → Prop
  /-- The members of a delegate are not written. -/
  | delegate : HasNonTypeMembers t i .delegateType
  | enum {d : Syntax.EnumDecl} : t.arena.payload? .enumDecl i = some d → d.members ≠ [] →
      HasNonTypeMembers t i .enumType
  | primaryConstructor {k : SyntaxKind} {kind : TypeKind} {d : Syntax.TypeDecl} :
      t.arena.kindOf? i = some k → k.isClassLike = true → TypeKind.ofSyntax? k = some kind →
      t.arena.payload? .typeDecl i = some d → d.parameterList.isSome = true →
      HasNonTypeMembers t i kind
  | listed {kind : TypeKind} {j : NodeIndex} {c : MemberClass} : kind.ownsListed = true →
      j ∈ t.memberList i → t.memberClassOf? j = some c → c = .nonType ∨ c = .statement →
      HasNonTypeMembers t i kind
  /-- Such a class is made up only where there is something for it to hold. -/
  | implicitClass : HasNonTypeMembers t i .implicitClass

/-- A type stands for a node, and says of itself that it has members that are no types just if it
has. Members with names are such. -/
structure TellsMembers (t : SyntaxTree) (header : TypeHeader) : Prop where
  reference : header.reference = t.reference header.reference.node
  fact : .hasAnyNonTypeMembers ∈ header.facts ↔
    t.HasNonTypeMembers header.reference.node header.kind
  names : (∃ name, name ∈ header.memberNames) → .hasAnyNonTypeMembers ∈ header.facts

variable {t : SyntaxTree} {i j : NodeIndex}

theorem not_hasNonTypeMembers_simpleProgram : ¬ t.HasNonTypeMembers i .simpleProgram := by
  intro h
  cases h with
  | primaryConstructor _ _ hkind =>
    have hsource := TypeKind.isSynthetic_of_ofSyntax? hkind
    cases hsource
  | listed howns => cases howns

/-- Where a type has what its node lists, its primary constructor and what is listed decide. -/
theorem hasNonTypeMembers_iff {kind : TypeKind} (howns : kind.ownsListed = true) :
    t.HasNonTypeMembers i kind ↔
      (∃ k, t.arena.kindOf? i = some k ∧ k.isClassLike = true ∧
        TypeKind.ofSyntax? k = some kind ∧ ∃ d : Syntax.TypeDecl,
          t.arena.payload? .typeDecl i = some d ∧ d.parameterList.isSome = true) ∨
      ∃ j ∈ t.memberList i, t.memberClassOf? j = some .nonType ∨
        t.memberClassOf? j = some .statement := by
  constructor
  · intro h
    cases h with
    | delegate | implicitClass | enum => cases howns
    | primaryConstructor hk hclass hkind hd hprimary =>
      exact .inl ⟨_, hk, hclass, hkind, _, hd, hprimary⟩
    | listed _ hj hclass hcases =>
      obtain rfl | rfl := hcases
      · exact .inr ⟨_, hj, .inl hclass⟩
      · exact .inr ⟨_, hj, .inr hclass⟩
  · rintro (⟨k, hk, hclass, hkind, d, hd, hprimary⟩ | ⟨j, hj, hclass | hclass⟩)
    · exact .primaryConstructor hk hclass hkind hd hprimary
    · exact .listed howns hj hclass (.inl rfl)
    · exact .listed howns hj hclass (.inr rfl)

section Summaries
variable {members : NodeList} {skipStatements primary : Bool}

theorem memberClassOf?_eq_nonType : t.memberClassOf? j = some .nonType ↔
    ∃ kind, t.arena.kindOf? j = some kind ∧ kind ∈ SyntaxKind.nonTypeKinds := by
  rw [memberClassOf?, Option.bind_eq_some_iff]
  simp only [SyntaxKind.memberClass?_eq_nonType]

/-- A member counts by its class. -/
theorem shows_nonType_iff : t.arena.Shows skipStatements j .hasAnyNonTypeMembers ↔
    t.memberClassOf? j = some .nonType ∨
      t.memberClassOf? j = some .statement ∧ skipStatements = false := by
  rw [memberClassOf?_eq_nonType, memberClassOf?_eq_statement]
  constructor
  · intro h
    cases h with
    | nonType hkind hmem => exact .inl ⟨_, hkind, hmem⟩
    | statement hkind hskip => exact .inr ⟨hkind, hskip⟩
  · rintro (⟨kind, hkind, hmem⟩ | ⟨hkind, hskip⟩)
    · exact .nonType hkind hmem
    · exact .statement hkind hskip

/-- A member that has a name to be looked up by is no type and no statement. -/
theorem memberClassOf?_of_contributes {name : String} (h : t.arena.Contributes j name) :
    t.memberClassOf? j = some .nonType := by
  rw [memberClassOf?_eq_nonType]
  cases h with
  | field hkind hcases | property hkind hcases =>
    obtain rfl | rfl := hcases <;> exact ⟨_, hkind, by decide⟩
  | method hkind | staticConstructor hkind | constructor hkind | destructor hkind | indexer hkind
  | operator hkind | conversion hkind => exact ⟨_, hkind, by decide⟩

theorem nonType_mem_memberSummary :
    .hasAnyNonTypeMembers ∈ (t.arena.memberSummary members skipStatements primary).facts ↔
      primary = true ∨ ∃ j ∈ members, t.memberClassOf? j = some .nonType ∨
        t.memberClassOf? j = some .statement ∧ skipStatements = false := by
  simp only [Arena.mem_memberSummary_facts, shows_nonType_iff, and_true]

theorem nonType_mem_of_name {name : String}
    (h : name ∈ (t.arena.memberSummary members skipStatements primary).names) :
    .hasAnyNonTypeMembers ∈ (t.arena.memberSummary members skipStatements primary).facts := by
  obtain ⟨j, hj, hname⟩ := Arena.mem_memberSummary_names.1 h
  exact nonType_mem_memberSummary.2 (.inr ⟨j, hj, .inl (memberClassOf?_of_contributes hname)⟩)

end Summaries

theorem lists_iff {c : MemberClass} :
    t.lists i c = true ↔ ∃ j ∈ t.memberList i, t.memberClassOf? j = some c := by
  simp [lists]

/-! ### Types of the source -/

theorem tellsMembers_classHeader (fileHints : AttributeHints) {k : SyntaxKind} {kind : TypeKind}
    {d : Syntax.TypeDecl} (hk : t.arena.kindOf? i = some k) (hclass : k.isClassLike = true)
    (hkind : TypeKind.ofSyntax? k = some kind) (hd : t.arena.payload? .typeDecl i = some d) :
    t.TellsMembers (t.classHeader fileHints i kind d) := by
  have howns : kind.ownsListed = true := by
    obtain rfl | rfl | rfl | rfl | rfl := SyntaxKind.isClassLike_cases hclass <;>
      cases hkind <;> rfl
  have hfacts : .hasAnyNonTypeMembers ∈ (t.classHeader fileHints i kind d).facts ↔
      .hasAnyNonTypeMembers ∈
        (t.arena.memberSummary d.members false d.parameterList.isSome).facts := by
    simp [classHeader, FlagSet.mem_when]
  have hnames : (∃ name, name ∈ (t.classHeader fileHints i kind d).memberNames) →
      .hasAnyNonTypeMembers ∈ (t.classHeader fileHints i kind d).facts := by
    rintro ⟨name, hname⟩
    exact hfacts.2 (nonType_mem_of_name hname)
  refine ⟨rfl, hfacts.trans ?_, hnames⟩
  change _ ↔ t.HasNonTypeMembers i kind
  rw [nonType_mem_memberSummary, hasNonTypeMembers_iff howns, memberList_of_type hd]
  simp [hk, hclass, hkind, hd]

theorem tellsMembers_delegateHeader (fileHints : AttributeHints) (i : NodeIndex)
    (d : Syntax.Delegate) : t.TellsMembers (t.delegateHeader fileHints i d) := by
  have hfact : .hasAnyNonTypeMembers ∈ (t.delegateHeader fileHints i d).facts :=
    FlagSet.mem_union.2 (.inl (FlagSet.mem_single.2 rfl))
  exact ⟨rfl, ⟨fun _ => .delegate, fun _ => hfact⟩, fun _ => hfact⟩

theorem tellsMembers_enumHeader (fileHints : AttributeHints) {d : Syntax.EnumDecl}
    (hd : t.arena.payload? .enumDecl i = some d) :
    t.TellsMembers (t.enumHeader fileHints i d) := by
  have hfacts : .hasAnyNonTypeMembers ∈ (t.enumHeader fileHints i d).facts ↔ d.members ≠ [] := by
    simp [enumHeader, Arena.enumSummary, FlagSet.mem_when]
  refine ⟨rfl, hfacts.trans ⟨.enum hd, fun h => ?_⟩, ?_⟩
  · change t.HasNonTypeMembers i .enumType at h
    cases h with
    | enum hd' hne =>
      rw [hd] at hd'
      cases hd'
      exact hne
    | primaryConstructor _ hclass hkind =>
      obtain rfl | rfl | rfl | rfl | rfl := SyntaxKind.isClassLike_cases hclass <;> cases hkind
    | listed howns => cases howns
  · rintro ⟨name, hname⟩
    refine hfacts.2 fun hnil => ?_
    simp [enumHeader, Arena.enumSummary, hnil, NameSet.mem_ofList] at hname

/-! ### Types that are made up -/

theorem tellsMembers_simpleProgram (unit first : NodeIndex) (globals : NodeList) :
    t.TellsMembers (t.simpleProgram unit first globals).header := by
  have hnot : ¬ .hasAnyNonTypeMembers ∈ (t.simpleProgram unit first globals).header.facts := by
    simp [simpleProgram_eq_any, TypeDeclaration.header, programFacts, FlagSet.mem_when]
  refine ⟨rfl, ⟨fun h => absurd h hnot, fun h => ?_⟩, ?_⟩
  · exact absurd h not_hasNonTypeMembers_simpleProgram
  · rintro ⟨name, hname⟩
    exact absurd hname NameSet.not_mem_empty

theorem tellsMembers_implicitClass {k : SyntaxKind} {listed : List ListedMember}
    {acceptsStatements : Bool}
    (hlisted : t.listMembers k (t.memberList i) = .ok listed)
    (houtside : (listed.any fun m => m.memberClass == .nonType ||
      (m.memberClass == .statement && !acceptsStatements)) = true) :
    t.TellsMembers (t.implicitClass i (t.memberList i) acceptsStatements).header := by
  have hfact : .hasAnyNonTypeMembers ∈
      (t.arena.memberSummary (t.memberList i) acceptsStatements false).facts := by
    rw [any_outside_eq hlisted, Bool.or_eq_true, Bool.and_eq_true, lists_iff, lists_iff] at houtside
    rw [nonType_mem_memberSummary]
    obtain ⟨j, hj, hclass⟩ | ⟨⟨j, hj, hclass⟩, hskip⟩ := houtside
    · exact .inr ⟨j, hj, .inl hclass⟩
    · exact .inr ⟨j, hj, .inr ⟨hclass, by simpa using hskip⟩⟩
  exact ⟨rfl, ⟨fun _ => .implicitClass, fun _ => hfact⟩, fun _ => hfact⟩

theorem tellsMembers_wrappers {k : SyntaxKind} {listed : List ListedMember}
    (hlisted : t.listMembers k (t.memberList i) = .ok listed) (acceptsStatements : Bool) :
    ∀ ty ∈ t.wrappers i (t.memberList i) listed acceptsStatements, t.TellsMembers ty.header := by
  intro ty hty
  obtain ⟨first, globals, rfl⟩ | ⟨rfl, houtside⟩ := mem_wrappers_cases hty
  · exact tellsMembers_simpleProgram i first globals
  · exact tellsMembers_implicitClass hlisted houtside

theorem tellsMembers_scriptType (hroot : t.arena.kindOf? t.root = some .compilationUnit)
    (options : DeclarationOptions) (inner : List TypeDeclaration) :
    t.TellsMembers (t.scriptType options (t.memberList t.root) inner).header := by
  have howns : (t.scriptType options (t.memberList t.root) inner).header.kind.ownsListed = true := by
    cases h : options.isSubmission <;> simp [scriptType, TypeDeclaration.header, h,
      TypeKind.ownsListed]
  have hnames : (∃ name, name ∈
      (t.scriptType options (t.memberList t.root) inner).header.memberNames) →
        .hasAnyNonTypeMembers ∈ (t.scriptType options (t.memberList t.root) inner).header.facts := by
    rintro ⟨name, hname⟩
    exact nonType_mem_of_name hname
  refine ⟨rfl, ?_, hnames⟩
  generalize (t.scriptType options (t.memberList t.root) inner).header.kind = kind at howns
  change .hasAnyNonTypeMembers ∈
    (t.arena.memberSummary (t.memberList t.root) false false).facts ↔
      t.HasNonTypeMembers t.root kind
  rw [nonType_mem_memberSummary, hasNonTypeMembers_iff howns]
  simp [hroot, SyntaxKind.isClassLike]

end SyntaxTree

theorem Builder.Opens.tellsMembers {b : Builder} {i : NodeIndex} {o : Opened}
    (ho : b.Opens i o) : ∀ header ∈ o.headers, b.tree.TellsMembers header := by
  intro header hheader
  cases ho with
  | @ofNamespace k d listed _ _ hd hlisted =>
    obtain ⟨ty, hty, rfl⟩ := List.mem_map.1 hheader
    rw [← SyntaxTree.memberList_of_namespace hd] at hlisted
    dsimp only at hty
    rw [← SyntaxTree.memberList_of_namespace hd] at hty
    exact SyntaxTree.tellsMembers_wrappers hlisted false ty hty
  | ofType hk hclass hkind hd =>
    obtain rfl := List.mem_singleton.1 hheader
    exact SyntaxTree.tellsMembers_classHeader b.fileHints hk hclass hkind hd
  | ofDelegate =>
    obtain rfl := List.mem_singleton.1 hheader
    exact SyntaxTree.tellsMembers_delegateHeader b.fileHints i _
  | ofEnum _ hd =>
    obtain rfl := List.mem_singleton.1 hheader
    exact SyntaxTree.tellsMembers_enumHeader b.fileHints hd

namespace SyntaxTree

/-- Every type that is built says that it has members that are no types just if it has, as its kind
and its node have it. A program made of statements never says so, and a type whose members have names
always does. -/
theorem declare_nonTypeMembers (t : SyntaxTree) (options : DeclarationOptions)
    {r : RootDeclaration} (hr : t.declare options = .ok r) :
    ∀ ty ∈ r.types, ty.header.reference = t.reference ty.header.reference.node ∧
      (.hasAnyNonTypeMembers ∈ ty.header.facts ↔
        t.HasNonTypeMembers ty.header.reference.node ty.header.kind) ∧
      (ty.header.kind = .simpleProgram → ¬ .hasAnyNonTypeMembers ∈ ty.header.facts) ∧
      ((∃ name, name ∈ ty.header.memberNames) → .hasAnyNonTypeMembers ∈ ty.header.facts) := by
  obtain ⟨s, hs, rfl⟩ := declare_eq_ok hr
  obtain ⟨hints, -, hroot, hunit, hlisted, hbuilt⟩ := sources_stages hs
  rw [Builder.declarationsOf_eq_size] at hbuilt
  have hmembers := memberList_of_unit hunit
  have htells : ∀ ty ∈ Declaration.types (t.rootChildren options s), t.TellsMembers ty.header := by
    refine forall_header_rootChildren options
      (Builder.forall_header (fun _ _ ho => ho.tellsMembers) hbuilt) ?_ ?_
    · rw [← hmembers]
      exact tellsMembers_wrappers hlisted true
    · rw [← hmembers]
      exact tellsMembers_scriptType hroot options
  intro ty hty
  rw [RootDeclaration.types_eq, rootDeclaration_children] at hty
  have hty := htells ty hty
  refine ⟨hty.reference, hty.fact, fun hkind hfact => ?_, hty.names⟩
  rw [hty.fact, hkind] at hfact
  exact not_hasNonTypeMembers_simpleProgram hfact

/-- A file with a class that has nothing but the parameters of a primary constructor, one that lists
nothing but an incomplete member, an empty enum, and an enum whose one member is no node. -/
def sampleHollow : SyntaxTree :=
  let a : Arena := {}
  let a := (a.add .typeDecl .classDeclaration ⟨0, 9⟩
    ({ parameterList := some [] } : Syntax.TypeDecl)).2
  let a := (a.addToken .incompleteMember ⟨17, 23⟩).2
  let a := (a.add .typeDecl .classDeclaration ⟨10, 24⟩
    ({ members := [.ofNat 1] } : Syntax.TypeDecl)).2
  let a := (a.add .enumDecl .enumDeclaration ⟨25, 33⟩ ({} : Syntax.EnumDecl)).2
  let a := (a.add .enumDecl .enumDeclaration ⟨34, 42⟩
    ({ members := [.missing] } : Syntax.EnumDecl)).2
  let a := (a.add .compilationUnit .compilationUnit ⟨0, 42⟩
    ({ members := [.ofNat 0, .ofNat 2, .ofNat 3, .ofNat 4] } : Syntax.CompilationUnit)).2
  ⟨⟨0⟩, "hollow.cs", {}, a, .ofNat 5⟩

theorem sampleHollow_declare_nonTypeMembers : ∃ r, sampleHollow.declare {} = .ok r ∧
    r.types.map (·.header.facts.contains .hasAnyNonTypeMembers) = [true, false, false, true] ∧
    ∀ ty ∈ r.types, .hasAnyNonTypeMembers ∈ ty.header.facts ↔
      sampleHollow.HasNonTypeMembers ty.header.reference.node ty.header.kind := by
  obtain ⟨r, hr⟩ : ∃ r, sampleHollow.declare {} = .ok r :=
    Outcome.exists_eq_ok (by decide +kernel)
  have hflags : (sampleHollow.declare {}).map (fun r =>
      r.types.map (·.header.facts.contains .hasAnyNonTypeMembers)) =
        .ok [true, false, false, true] := by decide +kernel
  rw [hr] at hflags
  exact ⟨r, hr, Except.ok.inj hflags, fun ty hty =>
    (declare_nonTypeMembers sampleHollow {} hr ty hty).2.1⟩

end SyntaxTree

end DeclTree
