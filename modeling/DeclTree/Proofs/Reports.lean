import DeclTree.Proofs.Assembly
import DeclTree.Proofs.Settlement
import DeclTree.Proofs.Wrappers
/-!
Where the diagnostics of a file come from. The root has one of its own, each node that a build comes
to has those of the declaration that it becomes, and a program may have one; nothing else reports.
-/
namespace DeclTree

/-- What is reported of the place of a namespace. -/
def Code.placement : List Code :=
  [secondFileScopedNamespace, fileScopedAndNormalNamespace, fileScopedNamespaceNotFirst]

namespace Declaration

/-- The diagnostics in a row of declarations, at any depth. -/
def reports (row : List Declaration) : List Diagnostic := (flatten row).flatMap (·.diagnostics)

@[simp] theorem reports_nil : reports [] = [] := by simp [reports]

@[simp] theorem reports_append (row others : List Declaration) :
    reports (row ++ others) = reports row ++ reports others := by
  simp [reports]

theorem reports_perm {row others : List Declaration} (h : row.Perm others) :
    (reports row).Perm (reports others) :=
  (flatten_perm h).flatMap_right _

theorem reports_namespaceDecl (header : NamespaceHeader) (inner : List Declaration) :
    reports [.namespaceDecl header inner] = header.diagnostics ++ reports inner := by
  simp [reports, flatten_cons, children, diagnostics]

theorem reports_typeDecl (header : TypeHeader) (inner : List TypeDeclaration) :
    reports [.typeDecl (.mk header inner)] =
      header.diagnostics ++ reports (inner.map .typeDecl) := by
  simp [reports, flatten_cons, children, diagnostics, TypeDeclaration.header,
    TypeDeclaration.children]

theorem reports_nest (headers : List NamespaceHeader) (inner : List Declaration) :
    reports (nest headers inner) = headers.flatMap (·.diagnostics) ++ reports inner := by
  induction headers with
  | nil => rfl
  | cons header headers ih =>
    rw [nest, reports_namespaceDecl, ih, List.flatMap_cons, List.append_assoc]

theorem reports_leaves {leaves : List TypeDeclaration} (h : ∀ ty ∈ leaves, ty.children = []) :
    reports (leaves.map .typeDecl) = leaves.flatMap (·.header.diagnostics) := by
  induction leaves with
  | nil => exact reports_nil
  | cons ty rest ih =>
    cases ty with
    | mk header inner =>
      have hinner : inner = [] := h _ List.mem_cons_self
      have hrest := ih fun ty hty => h ty (List.mem_cons_of_mem _ hty)
      rw [List.map_cons, ← List.singleton_append, reports_append, reports_typeDecl, hrest, hinner]
      simp [TypeDeclaration.header]

end Declaration

theorem RootDeclaration.allDiagnostics_eq (r : RootDeclaration) :
    r.allDiagnostics = r.diagnostics ++ Declaration.reports r.children := by
  rw [allDiagnostics_eq_flatMap, declarations_eq_flatten, Declaration.reports]

theorem NamespaceHeader.flatMap_reportFirst (diagnostics : List Diagnostic)
    {headers : List NamespaceHeader} (hne : headers ≠ [])
    (h : ∀ header ∈ headers, header.diagnostics = []) :
    (reportFirst diagnostics headers).flatMap (·.diagnostics) = diagnostics := by
  cases headers with
  | nil => exact absurd rfl hne
  | cons header headers =>
    rw [reportFirst, List.flatMap_cons, List.flatMap_eq_nil_iff.2 fun header hmem =>
      h header (List.mem_cons_of_mem _ hmem), List.append_nil]

namespace SyntaxTree
variable (t : SyntaxTree)

/-- What is reported of the program of a unit, if one is made up. -/
def programReports (listed : List ListedMember) : List Diagnostic :=
  match ListedMember.select listed .statement with
  | [] => []
  | first :: globals =>
    if (t.statementsOf (first :: globals)).all t.arena.isEmptyStatement then
      [⟨Code.emptyProgram, t.location first, []⟩]
    else []

variable {t}

theorem mem_placement_of_placementCode? {i : NodeIndex} {kind : SyntaxKind} {code : Code}
    (h : t.placementCode? i kind = some code) : code ∈ Code.placement := by
  simp only [placementCode?, Option.bind_eq_bind] at h
  split at h
  · split at h
    · cases h
      decide
    · cases h
      decide
    · obtain ⟨unit, -, h⟩ := Option.bind_eq_some_iff.1 h
      obtain ⟨first, -, h⟩ := Option.bind_eq_some_iff.1 h
      split at h
      · cases h
      · cases h
        decide
    · cases h
  · split at h
    · cases h
      decide
    · cases h

/-- The diagnostics for the name and the parts of a namespace declaration. -/
def partDiagnostics (t : SyntaxTree) (d : Syntax.Namespace) : List Diagnostic :=
  let place := t.location d.name
  let segments := t.arena.segments d.name
  let globalKeywords := (d.usings.filterMap fun i =>
    (t.arena.payload? .usingDirective i).map fun (u : Syntax.UsingDirective) =>
      u.globalKeyword).filter (·.isPresent)
  (if segments.any fun s => t.arena.isGenericSegment s.segment then
    [⟨Code.genericName, place, []⟩]
  else []) ++
  (if segments.any fun s => t.arena.isAliasedSegment s.segment then
    [⟨Code.aliasedName, place, []⟩]
  else []) ++
    t.reportAt Code.modifiersOnNamespace d.attributeLists.head? ++
    t.reportAt Code.modifiersOnNamespace d.modifiers.head? ++
    t.reportAt Code.globalUsingInNamespace globalKeywords.head?

theorem namespaceDiagnostics_eq_parts (i : NodeIndex) (kind : SyntaxKind) (d : Syntax.Namespace) :
    t.namespaceDiagnostics i kind d =
      ((t.placementCode? i kind).map fun code => ⟨code, t.location d.name, []⟩).toList ++
        t.partDiagnostics d := by
  simp only [namespaceDiagnostics, partDiagnostics, List.append_assoc]

theorem not_mem_placement_of_mem_partDiagnostics {d : Syntax.Namespace} {r : Diagnostic}
    (hr : r ∈ t.partDiagnostics d) : r.code ∉ Code.placement := by
  have hif {c : Bool} {code : Code} {place : Location}
      (h : r ∈ if c then [(⟨code, place, []⟩ : Diagnostic)] else []) : r.code = code := by
    cases c with
    | false => cases h
    | true => rw [List.mem_singleton.1 h]
  have hreport {code : Code} {place : Option NodeIndex} (h : r ∈ t.reportAt code place) :
      r.code = code := by
    cases place with
    | none => cases h
    | some i => rw [List.mem_singleton.1 h]
  simp only [partDiagnostics, List.mem_append] at hr
  obtain (((hr | hr) | hr) | hr) | hr := hr
  · rw [hif hr]
    decide
  · rw [hif hr]
    decide
  · rw [hreport hr]
    decide
  · rw [hreport hr]
    decide
  · rw [hreport hr]
    decide

theorem diagnostics_of_mem_headers {i : NodeIndex} {d : Syntax.Namespace} {segment : NodeIndex}
    {segments : List NameSegment} {header : NamespaceHeader}
    (h : header ∈ segments.map t.outerHeader ++ [t.innerHeader i d segment]) :
    header.diagnostics = [] := by
  obtain hheader | hheader := List.mem_append.1 h
  · obtain ⟨s, -, rfl⟩ := List.mem_map.1 hheader
    rfl
  · rw [List.mem_singleton.1 hheader]
    rfl

theorem reports_namespaceChain (i : NodeIndex) (kind : SyntaxKind) (d : Syntax.Namespace)
    (inner : List Declaration) : Declaration.reports [t.namespaceChain i kind d inner] =
      t.namespaceDiagnostics i kind d ++ Declaration.reports inner := by
  rw [← nest_namespaceHeaders, Declaration.reports_nest, namespaceHeaders,
    NamespaceHeader.flatMap_reportFirst _ (by simp) fun _ => diagnostics_of_mem_headers]

theorem reports_wrappers_of_namespace (i : NodeIndex) (members : NodeList)
    (listed : List ListedMember) :
    Declaration.reports ((t.wrappers i members listed false).map .typeDecl) = [] := by
  rw [Declaration.reports_leaves fun _ hty => (mem_wrappers hty).1]
  unfold wrappers
  dsimp only
  split <;> rfl

theorem reports_wrappers_of_unit (members : NodeList) (listed : List ListedMember) :
    Declaration.reports ((t.wrappers t.root members listed true).map .typeDecl) =
      t.programReports listed := by
  rw [Declaration.reports_leaves fun _ hty => (mem_wrappers hty).1]
  unfold wrappers programReports
  cases ListedMember.select listed .statement with
  | nil =>
    dsimp only
    split <;> rfl
  | cons first globals =>
    dsimp only
    split <;> simp [simpleProgram_eq_any, implicitClass, TypeDeclaration.header]

theorem reports_scriptClass (options : DeclarationOptions) (members : NodeList)
    (inner : List TypeDeclaration) :
    Declaration.reports [t.scriptClass options members inner] =
      Declaration.reports (inner.map .typeDecl) := by
  have hheaders : (t.scriptHeaders options).flatMap (·.diagnostics) = [] := by
    refine List.flatMap_eq_nil_iff.2 fun header hheader => ?_
    obtain ⟨name, -, rfl⟩ := List.mem_map.1 hheader
    rfl
  rw [← nest_scriptHeaders, Declaration.reports_nest, hheaders, scriptType,
    Declaration.reports_typeDecl]
  rfl

end SyntaxTree

namespace Builder
variable {b : Builder} {i : NodeIndex}

/-- What is reported of a node that becomes a declaration. -/
def reports (b : Builder) (i : NodeIndex) : List Diagnostic :=
  match b.openMember i with
  | .ok (.leaf header) => header.diagnostics
  | .ok (.ofNamespace pending _) =>
    b.tree.namespaceDiagnostics pending.node pending.kind pending.parts
  | .ok (.ofType header _) => header.diagnostics
  | .error _ => []

theorem reports_of_leaf {header : TypeHeader} (ho : b.Opens i (.leaf header)) :
    b.reports i = header.diagnostics := by
  rw [reports, ho.openMember_eq]

theorem reports_of_namespace {pending : OpenNamespace} {members : NodeList}
    (ho : b.Opens i (.ofNamespace pending members)) : b.reports i =
      b.tree.namespaceDiagnostics pending.node pending.kind pending.parts := by
  rw [reports, ho.openMember_eq]

theorem reports_of_type {header : TypeHeader} {members : NodeList}
    (ho : b.Opens i (.ofType header members)) : b.reports i = header.diagnostics := by
  rw [reports, ho.openMember_eq]

/-- What is reported in a row of declarations is what is reported of the nodes that it is built from,
in pre-order. -/
theorem exists_reports {depth : Nat} {members : NodeList} {row : List Declaration}
    (hrow : b.declarationsFrom depth members = .ok row) :
    ∃ visits, Walk.Preorder b.tree.declaredMembers members visits ∧
      (∀ i ∈ visits, ∃ o, b.Opens i o) ∧
      Declaration.reports row = visits.flatMap b.reports := by
  refine declarationsFrom_induction (P := fun members row =>
    ∃ visits, Walk.Preorder b.tree.declaredMembers members visits ∧
      (∀ i ∈ visits, ∃ o, b.Opens i o) ∧ Declaration.reports row = visits.flatMap b.reports)
    ⟨[], .nil, by simp, by simp⟩ ?_ hrow
  intro i o rest inner later ho htypes ⟨below, hbelow, hopens, hinner⟩ ⟨after, hafter, hopens', hlater⟩
  refine ⟨_, .cons hbelow hafter, ?_, ?_⟩
  · intro j hj
    obtain rfl | hj := List.mem_cons.1 hj
    · exact ⟨o, ho⟩
    · obtain hj | hj := List.mem_append.1 hj
      · exact hopens j hj
      · exact hopens' j hj
  suffices hone : Declaration.reports [b.close o inner] = b.reports i ++ below.flatMap b.reports by
    rw [← List.singleton_append, Declaration.reports_append, hone, hlater, List.flatMap_cons,
      List.flatMap_append, List.append_assoc]
  have hmembers := ho.members_eq
  cases ho with
  | ofNamespace hk hnamespace hd hlisted =>
    rw [reports_of_namespace (.ofNamespace hk hnamespace hd hlisted), ← hinner]
    exact (SyntaxTree.reports_namespaceChain _ _ _ _).trans (by
      rw [Declaration.reports_append, SyntaxTree.reports_wrappers_of_namespace, List.append_nil])
  | ofType hk hclass hkind hd hlisted =>
    obtain ⟨types, rfl⟩ := htypes _ _ rfl
    rw [reports_of_type (.ofType hk hclass hkind hd hlisted), ← hinner, close, closeType_map,
      Declaration.reports_typeDecl]
  | ofDelegate hk hd =>
    rw [← hmembers] at hbelow
    cases hbelow
    rw [reports_of_leaf (.ofDelegate hk hd), close, Declaration.reports_typeDecl]
    simp
  | ofEnum hk hd =>
    rw [← hmembers] at hbelow
    cases hbelow
    rw [reports_of_leaf (.ofEnum hk hd), close, Declaration.reports_typeDecl]
    simp

end Builder

namespace SyntaxTree
variable {t : SyntaxTree} {s : Sources}

/-- All that is reported of a file, up to the order. -/
theorem allDiagnostics_perm (hs : t.sources = .ok s) (options : DeclarationOptions) :
    ∃ hints visits, Walk.Preorder t.declaredMembers (t.declaredMembers t.root) visits ∧
      (∀ i ∈ visits, ∃ o, (⟨t, hints⟩ : Builder).Opens i o) ∧
      (t.rootDeclaration s.unit (t.rootChildren options s)).allDiagnostics.Perm
        (t.usingOrderDiagnostics (t.arena.usingDirectives s.unit.usings) ++
          (visits.flatMap (⟨t, hints⟩ : Builder).reports ++
            if t.isScript then [] else t.programReports s.listed)) := by
  obtain ⟨hints, -, -, -, -, hbuilt⟩ := sources_stages hs
  rw [Builder.declarationsOf_eq_size] at hbuilt
  obtain ⟨visits, hvisits, hopens, hreports⟩ := Builder.exists_reports hbuilt
  refine ⟨hints, visits, hvisits, hopens, ?_⟩
  rw [RootDeclaration.allDiagnostics_eq, rootDeclaration_children, rootDeclaration_eq_any, ← hreports]
  refine List.Perm.append_left _ ?_
  cases hscript : t.isScript with
  | false =>
    rw [rootChildren_ordinary hscript, Declaration.reports_append, reports_wrappers_of_unit,
      if_neg Bool.false_ne_true]
  | true =>
    rw [rootChildren, hscript, if_pos rfl, if_pos rfl, Declaration.reports_append,
      reports_scriptClass, ← Declaration.reports_append, List.append_nil]
    exact Declaration.reports_perm (Declaration.perm_namespaces_types s.built)

end SyntaxTree

end DeclTree
