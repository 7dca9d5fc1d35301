import DeclTree.Proofs.AttributeNames
import DeclTree.Proofs.Budget
import DeclTree.Proofs.Census
import DeclTree.Proofs.Placement
/-!
Hints at attributes over a whole file. The aliases of a file are found by a walk of their own that
goes through namespaces only. It comes to the namespaces that become declarations and to no others, so
that all types of a file have the same hints from aliases, besides those from their own attributes.
-/
namespace DeclTree

namespace SyntaxTree
variable {t : SyntaxTree} {i j : NodeIndex}

section Namespaces

theorem exists_kind_of_namespace {d : Syntax.Namespace}
    (hd : t.arena.payload? .namespaceDecl i = some d) :
    ∃ k, t.arena.kindOf? i = some k ∧ k.isNamespace = true := by
  obtain ⟨k, hk, hshape⟩ := Option.bind_eq_some_iff.1 (Arena.shape?_of_payload? hd)
  exact ⟨k, hk, SyntaxKind.isNamespace_of_shape? hshape⟩

theorem ne_root_of_namespace (hroot : t.arena.kindOf? t.root = some .compilationUnit)
    {d : Syntax.Namespace} (hd : t.arena.payload? .namespaceDecl i = some d) : i ≠ t.root := by
  rintro rfl
  obtain ⟨k, hk, hnamespace⟩ := exists_kind_of_namespace hd
  rw [hroot] at hk
  cases hk
  cases hnamespace

/-- What lists a namespace declares it, unless it is a class or its like. -/
theorem mem_declaredMembers_of_namespace {k : SyntaxKind} {d : Syntax.Namespace}
    (hk : t.arena.kindOf? i = some k) (hclass : k.isClassLike = false)
    (hlisted : j ∈ t.memberList i) (hd : t.arena.payload? .namespaceDecl j = some d) :
    j ∈ t.declaredMembers i := by
  obtain ⟨member, hmember, hnamespace⟩ := exists_kind_of_namespace hd
  refine List.mem_filter.2 ⟨hlisted, ?_⟩
  simp [hk, hmember, SyntaxKind.declares, SyntaxKind.isDeclaration, hnamespace, hclass]

/-- Among declarations only namespaces declare namespaces. -/
theorem namespace_of_declares {d : Syntax.Namespace}
    (hi : ∃ h, t.arena.get? i = some h ∧ h.kind.isDeclaration = true)
    (hj : j ∈ t.declaredMembers i) (hd : t.arena.payload? .namespaceDecl j = some d) :
    ∃ outer, t.arena.payload? .namespaceDecl i = some outer ∧
      j ∈ t.arena.namespaceMembers i := by
  obtain ⟨member, hmember, hnamespace⟩ := exists_kind_of_namespace hd
  obtain ⟨h, hget, hdecl⟩ := hi
  have hk : t.arena.kindOf? i = some h.kind := by simp [Arena.kindOf?, hget]
  obtain ⟨hlisted, hdeclares⟩ := List.mem_filter.1 hj
  simp only [hk, hmember, SyntaxKind.declares, hnamespace, Bool.and_true, Bool.and_eq_true,
    Bool.not_eq_true'] at hdeclares
  obtain hkind | hkind | hkind | hkind := (SyntaxKind.isDeclaration_iff h.kind).1 hdecl
  · have hshape := SyntaxKind.shape?_of_isNamespace hkind
    cases houter : t.arena.payload? .namespaceDecl i with
    | none =>
      rw [memberList_eq_members? (by rw [hk]; exact hshape) (by decide)] at hlisted
      simp [Arena.members?, hk, hshape, houter] at hlisted
    | some outer =>
      rw [memberList_of_namespace houter] at hlisted
      exact ⟨outer, rfl, by simpa [Arena.namespaceMembers, houter] using hlisted⟩
  · rw [hkind] at hdeclares
    cases hdeclares.2
  · rw [memberList_of_leaf hk (.inl hkind)] at hlisted
    cases hlisted
  · rw [memberList_of_leaf hk (.inr hkind)] at hlisted
    cases hlisted

/-- Below a declaration the build comes to a namespace by way of namespaces. -/
theorem reaches_namespaceMembers (h : Walk.Reaches t.declaredMembers i j) {d : Syntax.Namespace}
    (hi : ∃ h, t.arena.get? i = some h ∧ h.kind.isDeclaration = true)
    (hd : t.arena.payload? .namespaceDecl j = some d) :
    Walk.Reaches t.arena.namespaceMembers i j ∧
      ∃ outer, t.arena.payload? .namespaceDecl i = some outer := by
  induction h with
  | refl => exact ⟨.refl _, d, hd⟩
  | step hmember _ ih =>
    obtain ⟨hreaches, between, hbetween⟩ := ih (mem_declaredMembers hmember) hd
    obtain ⟨outer, houter, hlisted⟩ := namespace_of_declares hi hmember hbetween
    exact ⟨.step hlisted hreaches, outer, houter⟩

theorem reaches_declaredMembers (h : Walk.Reaches t.arena.namespaceMembers i j)
    {d : Syntax.Namespace} (hd : t.arena.payload? .namespaceDecl j = some d) :
    Walk.Reaches t.declaredMembers i j ∧
      ∃ outer, t.arena.payload? .namespaceDecl i = some outer := by
  induction h with
  | refl => exact ⟨.refl _, d, hd⟩
  | @step i m _ hmember _ ih =>
    obtain ⟨hreaches, between, hbetween⟩ := ih hd
    cases houter : t.arena.payload? .namespaceDecl i with
    | none => simp [Arena.namespaceMembers, houter] at hmember
    | some outer =>
      obtain ⟨k, hk, hnamespace⟩ := exists_kind_of_namespace houter
      have hlisted : m ∈ t.memberList i := by
        rw [memberList_of_namespace houter]
        simpa [Arena.namespaceMembers, houter] using hmember
      have hdeclared := mem_declaredMembers_of_namespace hk
        (SyntaxKind.isClassLike_of_isNamespace hnamespace) hlisted hbetween
      exact ⟨.step hdeclared hreaches, outer, rfl⟩

/-- The walk through namespaces and the build come to the same namespaces. -/
theorem mem_visits_iff_reached {unit : Syntax.CompilationUnit}
    (hroot : t.arena.kindOf? t.root = some .compilationUnit)
    (hunit : t.arena.payload? .compilationUnit t.root = some unit) {visits : NodeList}
    (hvisits : Walk.Preorder t.arena.namespaceMembers unit.members visits) {d : Syntax.Namespace}
    (hd : t.arena.payload? .namespaceDecl i = some d) : i ∈ visits ↔ t.Reached i := by
  rw [hvisits.mem_iff]
  constructor
  · rintro ⟨r, hr, hreaches⟩
    obtain ⟨hbelow, outer, houter⟩ := reaches_declaredMembers hreaches hd
    rw [← memberList_of_unit hunit] at hr
    exact Walk.Reaches.step (mem_declaredMembers_of_namespace hroot rfl hr houter) hbelow
  · intro hreached
    cases hreached with
    | refl => exact absurd rfl (ne_root_of_namespace hroot hd)
    | @step _ r _ hr hbelow =>
      have hlisted := (List.mem_filter.1 hr).1
      rw [memberList_of_unit hunit] at hlisted
      exact ⟨r, hlisted, (reaches_namespaceMembers hbelow (mem_declaredMembers hr) hd).1⟩

end Namespaces

/-- Some directive of the file that is not global, in the unit or in a namespace that becomes a
declaration, gives an alias that could mean the attribute. -/
def FileAliasMatches (t : SyntaxTree) (h : AttributeHint) : Prop :=
  (∃ unit : Syntax.CompilationUnit, t.arena.payload? .compilationUnit t.root = some unit ∧
    t.arena.UsingMatches unit.usings false h) ∨
  ∃ i, t.Reached i ∧ ∃ d : Syntax.Namespace, t.arena.payload? .namespaceDecl i = some d ∧
    t.arena.UsingMatches d.usings false h

/-- The same for the global directives; only the unit counts. -/
def GlobalAliasMatches (t : SyntaxTree) (h : AttributeHint) : Prop :=
  ∃ unit : Syntax.CompilationUnit, t.arena.payload? .compilationUnit t.root = some unit ∧
    t.arena.UsingMatches unit.usings true h

theorem fileAliasHints?_of_fileHints {hints : AttributeHints} (hhints : t.fileHints = .ok hints) :
    t.arena.fileAliasHints? t.root = some hints := by
  unfold fileHints at hhints
  split at hhints
  · cases hhints
    assumption
  · cases hhints

/-- The hints of a file's aliases are those of the directives that the build comes to. -/
theorem mem_fileHints {unit : Syntax.CompilationUnit} {hints : AttributeHints} {h : AttributeHint}
    (hroot : t.arena.kindOf? t.root = some .compilationUnit)
    (hunit : t.arena.payload? .compilationUnit t.root = some unit)
    (hhints : t.fileHints = .ok hints) : h ∈ hints ↔ t.FileAliasMatches h := by
  have halias := fileAliasHints?_of_fileHints hhints
  rw [Arena.fileAliasHints?_of_payload hunit] at halias
  obtain ⟨visits, hwalk, rfl⟩ := Option.map_eq_some_iff.1 halias
  have hvisits := Walk.preorder_of_visited? hwalk
  rw [FlagSet.mem_union, FlagSet.mem_unions, Arena.mem_aliasHints, FileAliasMatches]
  simp only [hunit, Option.some.injEq, exists_eq_left']
  refine or_congr_right ⟨?_, ?_⟩
  · rintro ⟨i, hi, hh⟩
    cases hd : t.arena.payload? .namespaceDecl i with
    | none =>
      rw [Arena.mem_aliasHints] at hh
      obtain ⟨u, hu, -⟩ := hh
      simp [Arena.namespaceUsings, hd] at hu
    | some d =>
      rw [Arena.mem_aliasHints, Arena.namespaceUsings, hd] at hh
      exact ⟨i, (mem_visits_iff_reached hroot hunit hvisits hd).1 hi, d, hd, hh⟩
  · rintro ⟨i, hi, d, hd, hh⟩
    refine ⟨i, (mem_visits_iff_reached hroot hunit hvisits hd).2 hi, ?_⟩
    rw [Arena.mem_aliasHints, Arena.namespaceUsings, hd]
    exact hh

/-- The attribute lists of a node that declares a type. -/
def typeAttributeLists (t : SyntaxTree) (i : NodeIndex) : NodeList :=
  match (t.arena.kindOf? i).bind SyntaxKind.shape? with
  | some .typeDecl =>
    ((t.arena.payload? .typeDecl i).map fun (d : Syntax.TypeDecl) => d.attributeLists).getD []
  | some .delegate =>
    ((t.arena.payload? .delegate i).map fun (d : Syntax.Delegate) => d.attributeLists).getD []
  | some .enumDecl =>
    ((t.arena.payload? .enumDecl i).map fun (d : Syntax.EnumDecl) => d.attributeLists).getD []
  | _ => []

theorem typeAttributeLists_of_type {d : Syntax.TypeDecl}
    (hd : t.arena.payload? .typeDecl i = some d) : t.typeAttributeLists i = d.attributeLists := by
  simp [typeAttributeLists, Arena.shape?_of_payload? hd, hd]

theorem typeAttributeLists_of_delegate {d : Syntax.Delegate}
    (hd : t.arena.payload? .delegate i = some d) : t.typeAttributeLists i = d.attributeLists := by
  simp [typeAttributeLists, Arena.shape?_of_payload? hd, hd]

theorem typeAttributeLists_of_enum {d : Syntax.EnumDecl}
    (hd : t.arena.payload? .enumDecl i = some d) : t.typeAttributeLists i = d.attributeLists := by
  simp [typeAttributeLists, Arena.shape?_of_payload? hd, hd]

end SyntaxTree

namespace Builder
variable {b : Builder} {i : NodeIndex}

/-- A type stands for a node, and has the hints of the node's attributes and those of the file. -/
def Hinted (b : Builder) (ty : TypeDeclaration) : Prop :=
  ∃ i, b.tree.Reached i ∧ ty.header.reference = b.tree.reference i ∧
    ty.header.hints = b.tree.arena.attributeHints (b.tree.typeAttributeLists i) ∪ b.fileHints

theorem Opens.hinted {o : Opened} {inner : List Declaration} (ho : b.Opens i o)
    (hi : b.tree.Reached i)
    (htypes : ∀ header members, o = .ofType header members →
      ∃ types : List TypeDeclaration, inner = types.map .typeDecl)
    (hinner : ∀ ty ∈ Declaration.sourceTypes inner, b.Hinted ty) :
    ∀ ty ∈ Declaration.sourceTypes [b.close o inner], b.Hinted ty := by
  intro ty hty
  cases ho with
  | ofNamespace =>
    rw [close, closeNamespace, ← SyntaxTree.nest_namespaceHeaders, Declaration.sourceTypes_nest,
      Declaration.sourceTypes_append, SyntaxTree.sourceTypes_wrappers, List.append_nil] at hty
    exact hinner ty hty
  | ofType _ _ _ hd =>
    obtain ⟨types, rfl⟩ := htypes _ _ rfl
    rw [close, closeType_map] at hty
    obtain rfl | hty := Declaration.mem_sourceTypes_typeDecl hty
    · exact ⟨i, hi, rfl, by rw [SyntaxTree.typeAttributeLists_of_type hd]; rfl⟩
    · exact hinner ty hty
  | ofDelegate _ hd =>
    obtain rfl | hty := Declaration.mem_sourceTypes_typeDecl hty
    · exact ⟨i, hi, rfl, by rw [SyntaxTree.typeAttributeLists_of_delegate hd]; rfl⟩
    · simp at hty
  | ofEnum _ hd =>
    obtain rfl | hty := Declaration.mem_sourceTypes_typeDecl hty
    · exact ⟨i, hi, rfl, by rw [SyntaxTree.typeAttributeLists_of_enum hd]; rfl⟩
    · simp at hty

theorem hinted {depth : Nat} {members : NodeList} {row : List Declaration}
    (hrow : b.declarationsFrom depth members = .ok row)
    (hmembers : ∀ i ∈ members, b.tree.Reached i) :
    ∀ ty ∈ Declaration.sourceTypes row, b.Hinted ty := by
  refine declarationsFrom_induction (P := fun members row =>
    (∀ i ∈ members, b.tree.Reached i) → ∀ ty ∈ Declaration.sourceTypes row, b.Hinted ty)
    (by simp) ?_ hrow hmembers
  intro i o rest inner later ho htypes hinner hlater hmembers ty hty
  have hi := hmembers i List.mem_cons_self
  rw [Declaration.sourceTypes_cons] at hty
  obtain hty | hty := List.mem_append.1 hty
  · exact ho.hinted hi htypes (hinner fun j hj => hi.step hj) ty hty
  · exact hlater (fun j hj => hmembers j (List.mem_cons_of_mem i hj)) ty hty

end Builder

namespace SyntaxTree
variable {t : SyntaxTree}

theorem sourceTypes_rootChildren_perm (options : DeclarationOptions) (s : Sources) :
    (Declaration.sourceTypes (t.rootChildren options s)).Perm
      (Declaration.sourceTypes s.built) := by
  cases hscript : t.isScript with
  | false =>
    rw [rootChildren_ordinary hscript, Declaration.sourceTypes_append, sourceTypes_wrappers,
      List.append_nil]
  | true =>
    rw [rootChildren_scripted hscript, nest_scriptHeaders, Declaration.sourceTypes_append,
      sourceTypes_scriptClass, ← Declaration.sourceTypes_append]
    exact Declaration.sourceTypes_perm (Declaration.perm_namespaces_types s.built)

namespace LaidOut
variable {members : NodeList} {row : List Declaration}

/-- The namespaces that the build comes to become declarations. -/
theorem exists_namespace (h : t.LaidOut members row) {m i : NodeIndex} (hm : m ∈ members)
    (hreaches : Walk.Reaches t.declaredMembers m i) {d : Syntax.Namespace}
    (hd : t.arena.payload? .namespaceDecl i = some d) :
    ∃ decl ∈ Declaration.flatten row, decl.type? = none ∧ decl.reference = t.reference i := by
  induction h generalizing m with
  | nil => cases hm
  | @ofType first rest k header types later hk hkind _ _ _ ihInner ihLater =>
    rw [← List.singleton_append, Declaration.flatten_append]
    obtain rfl | hm := List.mem_cons.1 hm
    · cases hreaches with
      | refl =>
        obtain ⟨k', hk', hnamespace⟩ := exists_kind_of_namespace hd
        rw [hk] at hk'
        cases hk'
        obtain rfl | rfl := SyntaxKind.isNamespace_cases hnamespace <;> cases hkind
      | step hj hbelow =>
        obtain ⟨decl, hdecl, hsays⟩ := ihInner hj hbelow
        refine ⟨decl, List.mem_append_left _ ?_, hsays⟩
        rw [Declaration.flatten_singleton]
        exact List.mem_cons_of_mem _ hdecl
    · obtain ⟨decl, hdecl, hsays⟩ := ihLater hm hreaches
      exact ⟨decl, List.mem_append_right _ hdecl, hsays⟩
  | @ofNamespace first rest k d outer innermost inner later madeUp hk _ _ _ hreference _ _ _ ihInner
      ihLater =>
    have hwhole : Declaration.flatten [.namespaceDecl innermost (inner ++ madeUp.map .leaf)] =
        .namespaceDecl innermost (inner ++ madeUp.map .leaf) ::
          Declaration.flatten (inner ++ madeUp.map .leaf) := Declaration.flatten_singleton _
    rw [Declaration.flatten_append] at hwhole ⊢
    obtain rfl | hm := List.mem_cons.1 hm
    · cases hreaches with
      | refl =>
        refine ⟨.namespaceDecl innermost (inner ++ madeUp.map .leaf),
          List.mem_append_left _ (Declaration.mem_flatten_nest outer ?_), rfl, hreference⟩
        rw [hwhole]
        exact List.mem_cons_self
      | step hj hbelow =>
        obtain ⟨decl, hdecl, hsays⟩ := ihInner hj hbelow
        refine ⟨decl, List.mem_append_left _ (Declaration.mem_flatten_nest outer ?_), hsays⟩
        rw [hwhole]
        exact List.mem_cons_of_mem _ (List.mem_append_left _ hdecl)
    · obtain ⟨decl, hdecl, hsays⟩ := ihLater hm hreaches
      exact ⟨decl, List.mem_append_right _ hdecl, hsays⟩

end LaidOut

theorem RootLaidOut.mem_flatten {options : DeclarationOptions} {row children : List Declaration}
    (h : t.RootLaidOut options row children) {d : Declaration} (hd : d ∈ Declaration.flatten row) :
    d ∈ Declaration.flatten children := by
  cases h with
  | regular =>
    rw [Declaration.flatten_append]
    exact List.mem_append_left _ hd
  | @script outer header =>
    have hperm := Declaration.flatten_perm (Declaration.perm_namespaces_types row)
    rw [← hperm.mem_iff, Declaration.flatten_append] at hd
    rw [Declaration.flatten_append]
    obtain hd | hd := List.mem_append.1 hd
    · exact List.mem_append_left _ hd
    · refine List.mem_append_right _ (Declaration.mem_flatten_nest outer ?_)
      rw [Declaration.flatten_singleton]
      exact List.mem_cons_of_mem _ hd

/-- The hints of a file are exact. A type of the source has those of its own attributes and those of the
aliases that are not global, which are the same for all types of the file; the latter are written in
the unit or in namespaces that become declarations. The root has those of the global aliases. A hint
stands for the names of one attribute, with the suffix or without it. -/
theorem declare_hints (t : SyntaxTree) (options : DeclarationOptions) {r : RootDeclaration}
    (hr : t.declare options = .ok r) :
    (∀ ty ∈ r.sourceTypes, t.Reached ty.header.reference.node ∧ ∀ h, h ∈ ty.header.hints ↔
      t.arena.AttributeMatches (t.typeAttributeLists ty.header.reference.node) h ∨
        t.FileAliasMatches h) ∧
    (∀ i, t.Reached i → ∀ d : Syntax.Namespace, t.arena.payload? .namespaceDecl i = some d →
      ∃ decl ∈ r.declarations, decl.type? = none ∧ decl.reference = t.reference i) ∧
    (∀ h, h ∈ r.globalAliasHints ↔ t.GlobalAliasMatches h) ∧
    ∀ (h : AttributeHint) (name : String), h ∈ AttributeHint.ofName name ↔
      name = h.attributeName ∨ name = h.attributeName ++ "Attribute" := by
  obtain ⟨s, hs, rfl⟩ := declare_eq_ok hr
  obtain ⟨hints, hhints, hroot, hunit, -, hbuilt⟩ := sources_stages hs
  rw [Builder.declarationsOf_eq_size] at hbuilt
  have hhinted := Builder.hinted hbuilt fun i hi => reached_of_declared hi
  rw [RootDeclaration.sourceTypes_eq, RootDeclaration.declarations_eq_flatten,
    rootDeclaration_children]
  refine ⟨fun ty hty => ?_, fun i hi d hd => ?_, fun h => ?_, fun h name => AttributeHint.mem_ofName⟩
  · rw [(sourceTypes_rootChildren_perm options s).mem_iff] at hty
    obtain ⟨i, hi, hreference, htyHints⟩ := hhinted ty hty
    have hnode : ty.header.reference.node = i := by rw [hreference]; rfl
    refine ⟨hnode ▸ hi, fun h => ?_⟩
    rw [htyHints, hnode, FlagSet.mem_union, Arena.mem_attributeHints,
      mem_fileHints hroot hunit hhints]
  · cases hi with
    | refl => exact absurd rfl (ne_root_of_namespace hroot hd)
    | step hj hbelow =>
      have hrow : t.LaidOut (t.declaredMembers t.root) s.built := Builder.laidOut hbuilt
      obtain ⟨decl, hdecl, hsays⟩ := hrow.exists_namespace hj hbelow hd
      exact ⟨decl, (rootLaidOut hs options).mem_flatten hdecl, hsays⟩
  · simp only [GlobalAliasMatches, hunit, Option.some.injEq, exists_eq_left']
    exact Arena.mem_aliasHints

/-- A file with the alias `K = R.TypeIdentifierAttribute` in a namespace, and then a class outside it with
the attribute `TypeForwardedTo<>`. -/
def sampleAlias : SyntaxTree :=
  let a : Arena := {}
  let a := (a.add .identifier .identifierToken ⟨22, 23⟩ (⟨"K"⟩ : Syntax.Identifier)).2
  let a := (a.add .identifier .identifierName ⟨26, 27⟩ (⟨"R"⟩ : Syntax.Identifier)).2
  let a := (a.add .identifier .identifierName ⟨28, 51⟩
    (⟨"TypeIdentifierAttribute"⟩ : Syntax.Identifier)).2
  let a := (a.add .qualifiedName .qualifiedName ⟨26, 51⟩
    (⟨.ofNat 1, .ofNat 2⟩ : Syntax.QualifiedName)).2
  let a := (a.add .usingDirective .usingDirective ⟨16, 52⟩
    ({ aliasName := .ofNat 0, name := .ofNat 3 } : Syntax.UsingDirective)).2
  let a := (a.add .identifier .identifierName ⟨10, 11⟩ (⟨"A"⟩ : Syntax.Identifier)).2
  let a := (a.add .namespaceDecl .namespaceDeclaration ⟨0, 54⟩
    ({ name := .ofNat 5, usings := [.ofNat 4] } : Syntax.Namespace)).2
  let a := (a.add .identifier .identifierToken ⟨56, 71⟩ (⟨"TypeForwardedTo"⟩ : Syntax.Identifier)).2
  let a := (a.add .genericName .genericName ⟨56, 73⟩
    ({ identifier := .ofNat 7 } : Syntax.GenericName)).2
  let a := (a.add .attributeEntry .attributeEntry ⟨56, 73⟩
    ({ name := .ofNat 8 } : Syntax.AttributeEntry)).2
  let a := (a.add .attributeList .attributeList ⟨55, 74⟩
    ({ attributes := [.ofNat 9] } : Syntax.AttributeList)).2
  let a := (a.add .identifier .identifierToken ⟨81, 82⟩ (⟨"B"⟩ : Syntax.Identifier)).2
  let a := (a.add .typeDecl .classDeclaration ⟨55, 85⟩
    ({ attributeLists := [.ofNat 10], identifier := .ofNat 11 } : Syntax.TypeDecl)).2
  let a := (a.add .compilationUnit .compilationUnit ⟨0, 85⟩
    ({ members := [.ofNat 6, .ofNat 12] } : Syntax.CompilationUnit)).2
  ⟨⟨0⟩, "alias.cs", {}, a, .ofNat 13⟩

theorem sampleAlias_declare_hints : ∃ r, sampleAlias.declare {} = .ok r ∧
    r.sourceTypes.map (·.header.reference.node) = [.ofNat 12] ∧
    ∀ ty ∈ r.sourceTypes, AttributeHint.typeIdentifier ∈ ty.header.hints ∧
      AttributeHint.typeForwardedTo ∈ ty.header.hints := by
  obtain ⟨r, hr⟩ : ∃ r, sampleAlias.declare {} = .ok r := Outcome.exists_eq_ok (by decide +kernel)
  have hbuilt : (sampleAlias.declare {}).map
      (fun r => r.sourceTypes.map (·.header.reference.node)) = .ok [.ofNat 12] := by decide +kernel
  rw [hr] at hbuilt
  have hnodes : r.sourceTypes.map (·.header.reference.node) = [.ofNat 12] := Except.ok.inj hbuilt
  have hreached : sampleAlias.Reached (.ofNat 6) := reached_of_declared (by decide +kernel)
  have htarget : sampleAlias.arena.Unqualified (.ofNat 3) "TypeIdentifierAttribute" :=
    .right (.inr (by decide +kernel)) (d := ⟨.ofNat 1, .ofNat 2⟩) (by decide +kernel)
      (.identifier (.inl (by decide +kernel)) (by decide +kernel))
  have halias : sampleAlias.FileAliasMatches .typeIdentifier :=
    .inr ⟨.ofNat 6, hreached, { name := .ofNat 5, usings := [.ofNat 4] },
      by decide +kernel, .ofNat 4, List.mem_cons_self,
      { aliasName := .ofNat 0, name := .ofNat 3 }, by decide +kernel, rfl,
      "K", by decide +kernel, .inr ⟨"TypeIdentifierAttribute", htarget, .inr rfl⟩⟩
  have hgeneric : sampleAlias.arena.Unqualified (.ofNat 8) "TypeForwardedTo" :=
    .generic (by decide +kernel) (d := { identifier := .ofNat 7 }) (by decide +kernel)
      (by decide +kernel)
  have hattribute : sampleAlias.arena.AttributeMatches (sampleAlias.typeAttributeLists (.ofNat 12))
      .typeForwardedTo :=
    ⟨.ofNat 10, by decide +kernel, { attributes := [.ofNat 9] }, by decide +kernel, .ofNat 9,
      List.mem_cons_self, { name := .ofNat 8 }, by decide +kernel, "TypeForwardedTo", hgeneric,
      .inl rfl⟩
  refine ⟨r, hr, hnodes, fun ty hty => ?_⟩
  obtain ⟨-, hhints⟩ := (declare_hints sampleAlias {} hr).1 ty hty
  have hnode : ty.header.reference.node = .ofNat 12 := by
    have hmem : ty.header.reference.node ∈ r.sourceTypes.map (·.header.reference.node) :=
      List.mem_map_of_mem hty
    rw [hnodes] at hmem
    exact List.mem_singleton.1 hmem
  rw [hnode] at hhints
  exact ⟨(hhints .typeIdentifier).2 (.inr halias), (hhints .typeForwardedTo).2 (.inl hattribute)⟩

end SyntaxTree

end DeclTree
