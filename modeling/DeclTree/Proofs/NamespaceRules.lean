import DeclTree.Proofs.BottomUp
import DeclTree.Proofs.FileHints
/-!
What is wrong with a namespace declaration, as rules that its container, its name and its parts obey
or break. The place of a declaration is judged by the parent link of its node; in a tree that is made
bottom-up this is the container that lists the node, so the rules can name the container.
-/
namespace DeclTree

/-- The diagnostics of some rules, in the order of the rules. A rule holds of the diagnostic that there
is cause for, and of none if there is no cause. -/
inductive Obeys : List (Diagnostic → Prop) → List Diagnostic → Prop
  | nil : Obeys [] []
  | broken {rule : Diagnostic → Prop} {rules : List (Diagnostic → Prop)} {d : Diagnostic}
      {ds : List Diagnostic} : rule d → Obeys rules ds → Obeys (rule :: rules) (d :: ds)
  | kept {rule : Diagnostic → Prop} {rules : List (Diagnostic → Prop)} {ds : List Diagnostic} :
      (∀ d, ¬ rule d) → Obeys rules ds → Obeys (rule :: rules) ds

/-- Rules that hold of one diagnostic at most leave nothing open. -/
theorem Obeys.unique {rules : List (Diagnostic → Prop)} {ds ds' : List Diagnostic}
    (hrules : ∀ rule ∈ rules, ∀ d d', rule d → rule d' → d = d') (h : Obeys rules ds)
    (h' : Obeys rules ds') : ds = ds' := by
  induction h generalizing ds' with
  | nil =>
    cases h'
    rfl
  | broken hd _ ih =>
    obtain ⟨hrule, hrest⟩ := List.forall_mem_cons.1 hrules
    cases h' with
    | broken hd' hds' => rw [hrule _ _ hd hd', ih hrest hds']
    | kept hnone _ => exact absurd hd (hnone _)
  | kept hnone _ ih =>
    obtain ⟨-, hrest⟩ := List.forall_mem_cons.1 hrules
    cases h' with
    | broken hd' _ => exact absurd hd' (hnone _)
    | kept _ hds' => exact ih hrest hds'

theorem Obeys.of_map {β : Type} {rules : List (Diagnostic → Prop)} {found : Option β}
    {make : β → Diagnostic} {cause : β → Prop} {ds : List Diagnostic}
    (h : ∀ x, found = some x ↔ cause x) (hrest : Obeys rules ds) :
    Obeys ((fun r => ∃ x, cause x ∧ r = make x) :: rules) ((found.map make).toList ++ ds) := by
  cases found with
  | none => exact .kept (fun r ⟨x, hx, _⟩ => by simpa using (h x).2 hx) hrest
  | some x => exact .broken ⟨x, (h x).1 rfl, rfl⟩ hrest

theorem Obeys.of_if {cause : Prop} {rules : List (Diagnostic → Prop)} {c : Bool} {d : Diagnostic}
    {ds : List Diagnostic} (h : c = true ↔ cause) (hrest : Obeys rules ds) :
    Obeys ((fun r => cause ∧ r = d) :: rules) ((if c then [d] else []) ++ ds) := by
  by_cases hc : c = true
  · rw [if_pos hc]
    exact .broken ⟨h.1 hc, rfl⟩ hrest
  · rw [if_neg hc]
    exact .kept (fun r hr => hc (h.2 hr.1)) hrest

/-- What is wrong with the place of a namespace of some kind in a container of some kind. -/
inductive Misplaced (own container : SyntaxKind) (isFirst : Prop) : Code → Prop
  | second : own = .fileScopedNamespaceDeclaration → container = .fileScopedNamespaceDeclaration →
      Misplaced own container isFirst 8954
  | scopedInBraced : own = .fileScopedNamespaceDeclaration → container = .namespaceDeclaration →
      Misplaced own container isFirst 8955
  | late : own = .fileScopedNamespaceDeclaration → container = .compilationUnit → ¬ isFirst →
      Misplaced own container isFirst 8956
  | bracedInScoped : own = .namespaceDeclaration → container = .fileScopedNamespaceDeclaration →
      Misplaced own container isFirst 8955

theorem Misplaced.unique {own container : SyntaxKind} {isFirst : Prop} {code code' : Code}
    (h : Misplaced own container isFirst code) (h' : Misplaced own container isFirst code') :
    code = code' := by
  cases h <;> cases h' <;> simp_all

/-- The simple name of a segment is a generic name. -/
inductive Arena.GenericSegment (a : Arena) (segment : NodeIndex) : Prop
  | plain : a.kindOf? segment = some .genericName → GenericSegment a segment
  | aliased {d : Syntax.QualifiedName} : a.kindOf? segment = some .aliasQualifiedName →
      a.payload? .qualifiedName segment = some d → a.kindOf? d.right = some .genericName →
      GenericSegment a segment

namespace SyntaxTree
variable {t : SyntaxTree} {i container : NodeIndex} {own k : SyntaxKind} {d : Syntax.Namespace}

/-- The keyword of the first directive of a list that has the keyword `global`. -/
def FirstGlobalKeyword (t : SyntaxTree) (usings : NodeList) (keyword : NodeIndex) : Prop :=
  ∃ before j after, usings = before ++ j :: after ∧
    (∃ u : Syntax.UsingDirective, t.arena.payload? .usingDirective j = some u ∧
      u.globalKeyword = keyword) ∧ keyword.isPresent = true ∧
    ∀ earlier ∈ before, ∀ u : Syntax.UsingDirective,
      t.arena.payload? .usingDirective earlier = some u → u.globalKeyword.isMissing = true

/-- The rules for a namespace of the kind `own` that a container of the kind `k` lists. -/
def namespaceRules (t : SyntaxTree) (i container : NodeIndex) (own k : SyntaxKind)
    (d : Syntax.Namespace) (segments : List NameSegment) : List (Diagnostic → Prop) := [
  fun r => ∃ code, Misplaced own k ((t.memberList container).head? = some i) code ∧
    r = ⟨code, t.location d.name, []⟩,
  fun r => (∃ s ∈ segments, t.arena.GenericSegment s.segment) ∧ r = ⟨7002, t.location d.name, []⟩,
  fun r => (∃ s ∈ segments, t.arena.kindOf? s.segment = some .aliasQualifiedName) ∧
    r = ⟨7000, t.location d.name, []⟩,
  fun r => ∃ first, d.attributeLists.head? = some first ∧ r = ⟨1671, t.location first, []⟩,
  fun r => ∃ first, d.modifiers.head? = some first ∧ r = ⟨1671, t.location first, []⟩,
  fun r => ∃ keyword, t.FirstGlobalKeyword d.usings keyword ∧ r = ⟨8914, t.location keyword, []⟩]

theorem isGenericSegment_iff {segment : NodeIndex} :
    t.arena.isGenericSegment segment = true ↔ t.arena.GenericSegment segment := by
  rw [Arena.isGenericSegment, beq_iff_eq]
  constructor
  · intro h
    have hsimple : t.arena.SimpleName segment (t.arena.simpleName segment) :=
      Arena.simpleName_eq_iff.1 rfl
    generalize t.arena.simpleName segment = simple at h hsimple
    cases hsimple with
    | itself => exact .plain h
    | aliased halias hd => exact .aliased halias hd h
    | malformed => exact .plain h
  · intro h
    cases h with
    | plain hgeneric =>
      rw [Arena.simpleName_eq_iff.2 (.itself (by simp [hgeneric]))]
      exact hgeneric
    | aliased halias hd hgeneric =>
      rw [Arena.simpleName_eq_iff.2 (.aliased halias hd)]
      exact hgeneric

theorem head?_globalKeywords {usings : NodeList} {keyword : NodeIndex} :
    ((usings.filterMap fun i => (t.arena.payload? .usingDirective i).map
      fun (u : Syntax.UsingDirective) => u.globalKeyword).filter (·.isPresent)).head? =
        some keyword ↔ t.FirstGlobalKeyword usings keyword := by
  rw [List.head?_filter, List.find?_filterMap, Option.bind_eq_some_iff]
  constructor
  · rintro ⟨j, hj, hkeyword⟩
    obtain ⟨hpresent, before, after, rfl, hbefore⟩ := List.find?_eq_some_iff_append.1 hj
    obtain ⟨u, hu, rfl⟩ := Option.map_eq_some_iff.1 hkeyword
    refine ⟨before, j, after, rfl, ⟨u, hu, rfl⟩, ?_, fun earlier hearlier v hv => ?_⟩
    · simpa [hu] using hpresent
    · simpa [hv, NodeIndex.isPresent] using hbefore earlier hearlier
  · rintro ⟨before, j, after, rfl, ⟨u, hu, rfl⟩, hpresent, hbefore⟩
    refine ⟨j, List.find?_eq_some_iff_append.2 ⟨?_, before, after, rfl, fun earlier hearlier => ?_⟩,
      ?_⟩
    · simpa [hu] using hpresent
    · cases hv : t.arena.payload? .usingDirective earlier with
      | none => rfl
      | some v => simp [NodeIndex.isPresent, hbefore earlier hearlier v hv]
    · simp [hu]

/-- The rules for a namespace determine what is reported of it. -/
theorem eq_of_obeys_namespaceRules {segments : List NameSegment} {ds ds' : List Diagnostic}
    (h : Obeys (t.namespaceRules i container own k d segments) ds)
    (h' : Obeys (t.namespaceRules i container own k d segments) ds') : ds = ds' := by
  refine Obeys.unique ?_ h h'
  have hfound {β : Type} {found : Option β} {make : β → Diagnostic} (r r' : Diagnostic) :
      (∃ x, found = some x ∧ r = make x) → (∃ x, found = some x ∧ r' = make x) → r = r' := by
    rintro ⟨x, hx, rfl⟩ ⟨x', hx', rfl⟩
    rw [Option.some.inj (hx.symm.trans hx')]
  simp only [namespaceRules, List.forall_mem_cons]
  refine ⟨?_, ?_, ?_, hfound, hfound, ?_, by simp⟩
  · rintro r r' ⟨code, hcode, rfl⟩ ⟨code', hcode', rfl⟩
    rw [hcode.unique hcode']
  · rintro r r' ⟨-, rfl⟩ ⟨-, rfl⟩
    rfl
  · rintro r r' ⟨-, rfl⟩ ⟨-, rfl⟩
    rfl
  · simp only [← head?_globalKeywords]
    exact hfound

/-- A file-scoped namespace that a unit lists must be the first that it lists. -/
theorem placementCode?_in_unit (hparent : t.arena.parentOf i = container)
    (hk : t.arena.kindOf? container = some .compilationUnit)
    (hlisted : i ∈ t.memberList container) :
    t.placementCode? i .fileScopedNamespaceDeclaration =
      if (t.memberList container).head? = some i then none else some 8956 := by
  obtain ⟨k, s, hk', hs, hsome⟩ := payload?_of_mem_memberList hlisted
  obtain rfl := Option.some.inj (hk.symm.trans hk')
  obtain rfl : Shape.compilationUnit = s := Option.some.inj hs
  obtain ⟨unit, hunit⟩ : ∃ unit : Syntax.CompilationUnit,
      t.arena.payload? .compilationUnit container = some unit := Option.isSome_iff_exists.1 hsome
  rw [memberList_of_unit hunit] at hlisted ⊢
  cases hmembers : unit.members with
  | nil => simp [hmembers] at hlisted
  | cons first rest =>
    simp [placementCode?, hparent, hk, hunit, hmembers, Code.fileScopedNamespaceNotFirst]

theorem placementCode?_eq_some (hparent : t.arena.parentOf i = container)
    (hown : own.isNamespace = true) (hk : t.arena.kindOf? container = some k)
    (hlisted : i ∈ t.memberList container) {code : Code} :
    t.placementCode? i own = some code ↔
      Misplaced own k ((t.memberList container).head? = some i) code := by
  constructor
  · intro h
    obtain rfl | rfl := SyntaxKind.isNamespace_cases hown
    · obtain ⟨rfl, rfl⟩ : k = .fileScopedNamespaceDeclaration ∧
          Code.fileScopedAndNormalNamespace = code := by
        simpa [placementCode?, hparent, hk] using h
      exact .bracedInScoped rfl rfl
    · by_cases hunit : k = .compilationUnit
      · subst hunit
        rw [placementCode?_in_unit hparent hk hlisted] at h
        split at h
        · cases h
        · cases h
          exact .late rfl rfl ‹_›
      · simp only [placementCode?, hparent, hk, ↓reduceIte] at h
        split at h
        case h_1 hk =>
          cases hk
          cases h
          exact .second rfl rfl
        case h_2 hk =>
          cases hk
          cases h
          exact .scopedInBraced rfl rfl
        case h_3 hk =>
          cases hk
          exact absurd rfl hunit
        case h_4 => cases h
  · intro h
    cases h with
    | second hscoped hcontainer =>
      subst hscoped hcontainer
      simp [placementCode?, hparent, hk, Code.secondFileScopedNamespace]
    | scopedInBraced hscoped hcontainer =>
      subst hscoped hcontainer
      simp [placementCode?, hparent, hk, Code.fileScopedAndNormalNamespace]
    | late hscoped hcontainer hfirst =>
      subst hscoped hcontainer
      rw [placementCode?_in_unit hparent hk hlisted, if_neg hfirst]
    | bracedInScoped hbraced hcontainer =>
      subst hbraced hcontainer
      simp [placementCode?, hparent, hk, Code.fileScopedAndNormalNamespace]

/-- A declaration is judged by the rules, where its parent link names the container that lists it. -/
theorem namespaceDiagnostics_obeys (hparent : t.arena.parentOf i = container)
    (hown : own.isNamespace = true) (hk : t.arena.kindOf? container = some k)
    (hlisted : i ∈ t.memberList container) {segments : List NameSegment}
    (hsegments : t.arena.Dotted d.name segments) :
    Obeys (t.namespaceRules i container own k d segments) (t.namespaceDiagnostics i own d) := by
  have hgeneric : (segments.any fun s => t.arena.isGenericSegment s.segment) = true ↔
      ∃ s ∈ segments, t.arena.GenericSegment s.segment := by
    simp only [List.any_eq_true, isGenericSegment_iff]
  have haliased : (segments.any fun s => t.arena.isAliasedSegment s.segment) = true ↔
      ∃ s ∈ segments, t.arena.kindOf? s.segment = some .aliasQualifiedName := by
    simp [Arena.isAliasedSegment]
  rw [namespaceDiagnostics, hsegments.segments_eq, ← List.append_nil (_ ++ t.reportAt _ _)]
  simp only [List.append_assoc]
  exact .of_map (fun _ => placementCode?_eq_some hparent hown hk hlisted)
    (.of_if hgeneric (.of_if haliased (.of_map (fun _ => Iff.rfl) (.of_map (fun _ => Iff.rfl)
      (.of_map (fun _ => head?_globalKeywords) .nil)))))

end SyntaxTree

namespace Builder
variable {b : Builder} {i : NodeIndex} {own : SyntaxKind} {inner : List Declaration}

/-- The outermost namespace of a declaration has what is reported of the declaration. -/
theorem diagnostics_closeNamespace (pending : OpenNamespace) (inner : List Declaration) :
    (b.closeNamespace pending inner).diagnostics =
      b.tree.namespaceDiagnostics pending.node pending.kind pending.parts := by
  unfold closeNamespace SyntaxTree.namespaceChain
  dsimp only
  split <;> rfl

theorem Opens.eq_ofNamespace {o : Opened} (ho : b.Opens i o)
    (hk : b.tree.arena.kindOf? i = some own) (hown : own.isNamespace = true) :
    ∃ (d : Syntax.Namespace) (wrappers : List TypeDeclaration) (members : NodeList),
      b.tree.arena.payload? .namespaceDecl i = some d ∧
        o = .ofNamespace ⟨i, own, d, wrappers⟩ members := by
  cases ho with
  | ofNamespace hk' _ hd =>
    obtain rfl := Option.some.inj (hk.symm.trans hk')
    exact ⟨_, _, _, hd, rfl⟩
  | ofType hk' hclass =>
    obtain rfl := Option.some.inj (hk.symm.trans hk')
    rw [SyntaxKind.isClassLike_of_isNamespace hown] at hclass
    cases hclass
  | ofDelegate hk' =>
    obtain rfl := Option.some.inj (hk.symm.trans hk')
    cases hown
  | ofEnum hk' =>
    obtain rfl := Option.some.inj (hk.symm.trans hk')
    cases hown

/-- What is declared below an opened member is found below its declaration. -/
theorem mem_flatten_close {o : Opened} (ho : b.Opens i o)
    (htypes : ∀ header members, o = .ofType header members →
      ∃ types : List TypeDeclaration, inner = types.map .typeDecl)
    {j : NodeIndex} (hj : j ∈ b.tree.declaredMembers i) {decl : Declaration}
    (hdecl : decl ∈ Declaration.flatten inner) : decl ∈ Declaration.flatten [b.close o inner] := by
  rw [← ho.members_eq] at hj
  cases o with
  | leaf header => cases hj
  | ofNamespace pending members =>
    rw [close, closeNamespace, ← SyntaxTree.nest_namespaceHeaders]
    refine Declaration.mem_flatten_nest _ ?_
    rw [Declaration.flatten_append]
    exact List.mem_append_left _ hdecl
  | ofType header members =>
    obtain ⟨types, rfl⟩ := htypes header members rfl
    rw [close, closeType_map, Declaration.flatten_singleton]
    exact List.mem_cons_of_mem _ hdecl

/-- The build makes a declaration of every namespace that it comes to. -/
theorem exists_closed {depth : Nat} {members : NodeList} {row : List Declaration}
    (hrow : b.declarationsFrom depth members = .ok row) {m : NodeIndex} (hm : m ∈ members)
    (hreaches : Walk.Reaches b.tree.declaredMembers m i)
    (hk : b.tree.arena.kindOf? i = some own) (hown : own.isNamespace = true) :
    ∃ (d : Syntax.Namespace) (wrappers : List TypeDeclaration) (inner : List Declaration),
      b.tree.arena.payload? .namespaceDecl i = some d ∧
        b.closeNamespace ⟨i, own, d, wrappers⟩ inner ∈ Declaration.flatten row := by
  refine declarationsFrom_induction (P := fun members row => ∀ m ∈ members,
    Walk.Reaches b.tree.declaredMembers m i →
      ∃ (d : Syntax.Namespace) (wrappers : List TypeDeclaration) (inner : List Declaration),
        b.tree.arena.payload? .namespaceDecl i = some d ∧
          b.closeNamespace ⟨i, own, d, wrappers⟩ inner ∈ Declaration.flatten row)
    (by simp) ?_ hrow m hm hreaches
  intro first o rest inner later ho htypes hinner hlater m hm hreaches
  rw [← List.singleton_append, Declaration.flatten_append]
  obtain rfl | hm := List.mem_cons.1 hm
  · cases hreaches with
    | refl =>
      obtain ⟨d, wrappers, members, hd, rfl⟩ := ho.eq_ofNamespace hk hown
      refine ⟨d, wrappers, inner, hd, List.mem_append_left _ ?_⟩
      rw [Declaration.flatten_singleton]
      exact List.mem_cons_self
    | step hj hbelow =>
      obtain ⟨d, wrappers, below, hd, hdecl⟩ := hinner _ hj hbelow
      exact ⟨d, wrappers, below, hd, List.mem_append_left _ (mem_flatten_close ho htypes hj hdecl)⟩
  · obtain ⟨d, wrappers, below, hd, hdecl⟩ := hlater m hm hreaches
    exact ⟨d, wrappers, below, hd, List.mem_append_right _ hdecl⟩

end Builder

namespace SyntaxTree
variable {t : SyntaxTree} {i container : NodeIndex} {own k : SyntaxKind}

/-- A successful build has a declaration for every namespace that it comes to. -/
theorem exists_closed_of_declare {options : DeclarationOptions} {r : RootDeclaration}
    (hr : t.declare options = .ok r) (hreached : t.Reached i)
    (hk : t.arena.kindOf? i = some own) (hown : own.isNamespace = true) :
    ∃ (hints : AttributeHints) (d : Syntax.Namespace) (wrappers : List TypeDeclaration)
      (inner : List Declaration), t.arena.payload? .namespaceDecl i = some d ∧
        (⟨t, hints⟩ : Builder).closeNamespace ⟨i, own, d, wrappers⟩ inner ∈ r.declarations := by
  obtain ⟨s, hs, rfl⟩ := declare_eq_ok hr
  obtain ⟨hints, -, hroot, -, -, hbuilt⟩ := sources_stages hs
  rw [Builder.declarationsOf_eq_size] at hbuilt
  rw [RootDeclaration.declarations_eq_flatten, rootDeclaration_children]
  cases hreached with
  | refl =>
    obtain rfl := Option.some.inj (hk.symm.trans hroot)
    cases hown
  | step hj hbelow =>
    obtain ⟨d, wrappers, inner, hd, hdecl⟩ := Builder.exists_closed hbuilt hj hbelow hk hown
    exact ⟨hints, d, wrappers, inner, hd, (rootLaidOut hs options).mem_flatten hdecl⟩

/-- In a tree that is made bottom-up with no node used twice, each namespace is judged by the rules for
the container that lists it, and its outermost declaration has just what the rules say. -/
theorem declare_judges_namespaces {edits : List Arena.Edit}
    (harena : t.arena = Arena.ofEdits edits) (hadmitted : ∀ e ∈ edits, e.isAdmitted = true)
    (hbottomUp : Arena.BottomUp edits) {options : DeclarationOptions} {r : RootDeclaration}
    (hr : t.declare options = .ok r) (hreached : t.Reached i) (hown : t.arena.kindOf? i = some own)
    (hnamespace : own.isNamespace = true) (hk : t.arena.kindOf? container = some k)
    (hlisted : i ∈ t.memberList container) :
    ∃ (d : Syntax.Namespace) (segments : List NameSegment),
      t.arena.payload? .namespaceDecl i = some d ∧ t.arena.Dotted d.name segments ∧
      (∀ hints wrappers inner ds, Obeys (t.namespaceRules i container own k d segments) ds ↔
        ds = ((⟨t, hints⟩ : Builder).closeNamespace ⟨i, own, d, wrappers⟩ inner).diagnostics) ∧
      ∃ hints wrappers inner,
        (⟨t, hints⟩ : Builder).closeNamespace ⟨i, own, d, wrappers⟩ inner ∈ r.declarations := by
  obtain ⟨hints, d, wrappers, inner, hd, hdecl⟩ :=
    exists_closed_of_declare hr hreached hown hnamespace
  have hdescends : t.arena.Descends := harena ▸ hbottomUp.descends hadmitted
  have hnode : (t.arena.get? i).isSome := Arena.isSome_get?_of_payload? hd
  have hlink : i ∈ t.arena.links container := (t.memberList_sublist_links container).subset hlisted
  have hparent : t.arena.parentOf i = container := by
    rw [harena] at hnode hlink ⊢
    exact hbottomUp.parentOf_eq hadmitted hnode hlink
  obtain ⟨segments, hsegments⟩ := hdescends.exists_dotted d.name
  have hobeys : Obeys (t.namespaceRules i container own k d segments)
      (t.namespaceDiagnostics i own d) :=
    namespaceDiagnostics_obeys hparent hnamespace hk hlisted hsegments
  refine ⟨d, segments, hd, hsegments, fun hints wrappers inner ds => ?_, hints, wrappers, inner,
    hdecl⟩
  rw [Builder.diagnostics_closeNamespace]
  exact ⟨fun h => eq_of_obeys_namespaceRules h hobeys, fun h => h ▸ hobeys⟩

/-- Calls for a file with a class and then the declaration of `global::A.B<>` for the whole file, which
has an attribute list, a modifier and a global directive after another one. -/
def sampleMisplacedCalls : List Arena.Edit := [
  .node .identifier .identifierToken ⟨6, 7⟩ (⟨"C"⟩ : Syntax.Identifier),
  .node .typeDecl .classDeclaration ⟨0, 10⟩ ({ identifier := .ofNat 0 } : Syntax.TypeDecl),
  .node .identifier .identifierName ⟨32, 38⟩ (⟨"global"⟩ : Syntax.Identifier),
  .node .identifier .identifierName ⟨40, 41⟩ (⟨"A"⟩ : Syntax.Identifier),
  .node .qualifiedName .aliasQualifiedName ⟨32, 41⟩
    (⟨.ofNat 2, .ofNat 3⟩ : Syntax.QualifiedName),
  .node .identifier .identifierToken ⟨42, 43⟩ (⟨"B"⟩ : Syntax.Identifier),
  .node .genericName .genericName ⟨42, 45⟩ ({ identifier := .ofNat 5 } : Syntax.GenericName),
  .node .qualifiedName .qualifiedName ⟨32, 45⟩ (⟨.ofNat 4, .ofNat 6⟩ : Syntax.QualifiedName),
  .node .attributeList .attributeList ⟨11, 14⟩ ({} : Syntax.AttributeList),
  .token .publicKeyword ⟨15, 21⟩,
  .node .usingDirective .usingDirective ⟨47, 55⟩ ({} : Syntax.UsingDirective),
  .token .globalKeyword ⟨56, 62⟩,
  .node .usingDirective .usingDirective ⟨56, 71⟩
    ({ globalKeyword := .ofNat 11 } : Syntax.UsingDirective),
  .node .namespaceDecl .fileScopedNamespaceDeclaration ⟨11, 71⟩
    ({ attributeLists := [.ofNat 8], modifiers := [.ofNat 9], name := .ofNat 7,
       usings := [.ofNat 10, .ofNat 12] } : Syntax.Namespace),
  .node .compilationUnit .compilationUnit ⟨0, 71⟩
    ({ members := [.ofNat 1, .ofNat 13] } : Syntax.CompilationUnit)]

def sampleMisplaced : SyntaxTree :=
  ⟨⟨0⟩, "misplaced.cs", {}, Arena.ofEdits sampleMisplacedCalls, .ofNat 14⟩

theorem sampleMisplaced_declare_namespaces : ∃ r, sampleMisplaced.declare {} = .ok r ∧
    r.allDiagnostics.map (·.code) = [8956, 7002, 7000, 1671, 1671, 8914] ∧
    ∃ d segments, ∃ decl ∈ r.declarations, sampleMisplaced.arena.Dotted d.name segments ∧
      Obeys (sampleMisplaced.namespaceRules (.ofNat 13) (.ofNat 14)
        .fileScopedNamespaceDeclaration .compilationUnit d segments) decl.diagnostics := by
  obtain ⟨r, hr⟩ : ∃ r, sampleMisplaced.declare {} = .ok r :=
    Outcome.exists_eq_ok (by decide +kernel)
  have hcodes : (sampleMisplaced.declare {}).toOption.map (·.allDiagnostics.map (·.code)) =
      some [8956, 7002, 7000, 1671, 1671, 8914] := by decide +kernel
  have hadmitted : ∀ e ∈ sampleMisplacedCalls, e.isAdmitted = true := by decide +kernel
  have hbottomUp : Arena.BottomUp sampleMisplacedCalls :=
    .of_uses (by decide +kernel) (by decide +kernel)
  have hreached : sampleMisplaced.Reached (.ofNat 13) := reached_of_declared (by decide +kernel)
  have hown : sampleMisplaced.arena.kindOf? (.ofNat 13) =
      some .fileScopedNamespaceDeclaration := by decide +kernel
  have hk : sampleMisplaced.arena.kindOf? (.ofNat 14) = some .compilationUnit := by
    decide +kernel
  have hlisted : .ofNat 13 ∈ sampleMisplaced.memberList (.ofNat 14) := by decide +kernel
  obtain ⟨d, segments, -, hsegments, hobeys, hints, wrappers, inner, hdecl⟩ :=
    declare_judges_namespaces rfl hadmitted hbottomUp hr hreached hown rfl hk hlisted
  rw [hr] at hcodes
  exact ⟨r, hr, Option.some.inj hcodes, d, segments, _, hdecl, hsegments,
    (hobeys hints wrappers inner _).2 rfl⟩

end SyntaxTree

end DeclTree
