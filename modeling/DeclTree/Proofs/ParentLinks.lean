import DeclTree.Proofs.OutlineBuild
import DeclTree.Proofs.Reports
/-!
Parent links, which may say anything. They decide on nothing but the diagnostics for the places of
namespaces; a tree without them is built like any other, and reports none of these.
-/
namespace DeclTree

/-- What a namespace says of itself, but for what is reported of its place. -/
def NamespaceHeader.withoutPlacement (header : NamespaceHeader) : NamespaceHeader :=
  { header with diagnostics := header.diagnostics.filter fun d => d.code ∉ Code.placement }

/-- The declarations of a file without what is reported of the places of its namespaces. -/
def RootDeclaration.withoutPlacement (r : RootDeclaration) : RootDeclaration :=
  { r with children := r.children.map (·.mapHeaders (fun header => header) (·.withoutPlacement)) }

/-- An arena whose nodes all have no parent. -/
def Arena.withoutParents (a : Arena) : Arena := { a with parents := #[] }

namespace NamespaceHeader

theorem withoutPlacement_of_nil {header : NamespaceHeader} (h : header.diagnostics = []) :
    header.withoutPlacement = header := by
  rw [withoutPlacement, h, List.filter_nil, ← h]

theorem map_withoutPlacement_reportFirst (diagnostics : List Diagnostic)
    {headers : List NamespaceHeader} (h : ∀ header ∈ headers, header.diagnostics = []) :
    (reportFirst diagnostics headers).map (·.withoutPlacement) =
      reportFirst (diagnostics.filter fun d => d.code ∉ Code.placement) headers := by
  cases headers with
  | nil => rfl
  | cons header headers =>
    have hrest : headers.map (·.withoutPlacement) = headers.map id :=
      List.map_congr_left fun header hmem =>
        withoutPlacement_of_nil (h header (List.mem_cons_of_mem _ hmem))
    rw [reportFirst, List.map_cons, hrest, List.map_id]
    rfl

end NamespaceHeader

namespace SyntaxTree

/-- A tree whose nodes all have no parent. -/
def withoutParents (t : SyntaxTree) : SyntaxTree := { t with arena := t.arena.withoutParents }

variable {t t' : SyntaxTree}

theorem withoutParents_sameOutline : t.SameOutline (fun i => i) t.withoutParents where
  treeId := rfl
  options := rfl
  root := rfl
  arena := {
    isMissing _ := rfl
    traits _ := rfl
    payload s _ i := by
      have hpayload : t.withoutParents.arena.payload? s i = t.arena.payload? s i := rfl
      simp only [hpayload, Shape.rename_id] }

theorem segments_withoutParents (name : NodeIndex) :
    t.withoutParents.arena.segments name = t.arena.segments name := by
  have hsize : t.withoutParents.arena.size = t.arena.size := rfl
  rw [Arena.segments, hsize, withoutParents_sameOutline.arena.segmentsFrom_eq, Arena.segments]
  exact List.map_id' _

theorem placementCode?_withoutParents (i : NodeIndex) (kind : SyntaxKind) :
    t.withoutParents.placementCode? i kind = none := by
  have hparent : t.withoutParents.arena.parentOf i = .missing := by
    simp [Arena.parentOf, withoutParents, Arena.withoutParents]
  simp only [placementCode?, hparent, Arena.kindOf?, Arena.get?_missing]
  simp

theorem namespaceDiagnostics_withoutParents (i : NodeIndex) (kind : SyntaxKind)
    (d : Syntax.Namespace) : t.withoutParents.namespaceDiagnostics i kind d =
      (t.namespaceDiagnostics i kind d).filter fun r => r.code ∉ Code.placement := by
  have hparts : t.withoutParents.partDiagnostics d = t.partDiagnostics d := by
    simp only [partDiagnostics, segments_withoutParents]
    rfl
  have hkept : (t.partDiagnostics d).filter (fun r => r.code ∉ Code.placement) =
      t.partDiagnostics d :=
    List.filter_eq_self.2 fun r hr => by simpa using not_mem_placement_of_mem_partDiagnostics hr
  rw [namespaceDiagnostics_eq_parts, namespaceDiagnostics_eq_parts, placementCode?_withoutParents,
    hparts, List.filter_append, hkept]
  cases hcode : t.placementCode? i kind with
  | none => rfl
  | some code => simp [mem_placement_of_placementCode? hcode]

theorem headersAlike_withoutParents :
    SameOutline.HeadersAlike t (fun i => i) t.withoutParents (·.withoutPlacement) := by
  intro i k d _ _ _ _
  have houter : t.withoutParents.outerHeader = t.outerHeader :=
    funext withoutParents_sameOutline.outerHeader_eq
  have hinner (segment : NodeIndex) : t.withoutParents.innerHeader i d segment =
      t.innerHeader i d segment := by
    have hsame := withoutParents_sameOutline.innerHeader_eq (t := t) i d segment
    rwa [Shape.rename_id] at hsame
  rw [Shape.rename_id, namespaceHeaders, namespaceHeaders,
    NamespaceHeader.map_withoutPlacement_reportFirst _ fun _ => diagnostics_of_mem_headers,
    namespaceDiagnostics_withoutParents, segments_withoutParents, houter, hinner]

theorem programFacts_withoutParents (statements : NodeList) :
    t.withoutParents.programFacts statements = t.programFacts statements := rfl

theorem simpleProgram_withoutParents (unit first : NodeIndex) (globals : NodeList) :
    t.withoutParents.simpleProgram unit first globals =
      (t.simpleProgram unit first globals).mapHeaders (·.rename fun i => i) := by
  have hprogram := withoutParents_sameOutline.simpleProgram_eq (t := t) unit first globals
  rw [List.map_id', List.map_id', programFacts_withoutParents] at hprogram
  rw [hprogram, simpleProgram_eq_any, TypeDeclaration.mapHeaders_mk]
  rfl

theorem rootChildren_withoutParents (options : DeclarationOptions) (s : Sources) :
    t.withoutParents.rootChildren options (s.rename (fun i => i) (·.withoutPlacement)) =
      (t.rootChildren options s).map
        (·.mapHeaders (·.rename fun i => i) (·.withoutPlacement)) := by
  have houtline := withoutParents_sameOutline (t := t)
  rw [rootChildren, rootChildren, houtline.isScript_eq]
  split
  · have hheaders : ∀ header ∈ t.scriptHeaders options,
        header.withoutPlacement = header.rename fun i => i := by
      intro header hheader
      obtain ⟨name, -, rfl⟩ := List.mem_map.1 hheader
      rfl
    have hclass := houtline.scriptClass_eq options hheaders s.unit.members
      (s.built.filterMap (·.type?))
    rw [List.map_append, List.map_singleton, ← hclass, ← Declaration.filter_isNone_map,
      ← Declaration.filterMap_type?_map _ (·.withoutPlacement)]
    rfl
  · have hwrappers := houtline.map_wrappers_eq (f := fun ty => ty)
      (g := (·.mapHeaders (·.rename fun i => i))) t.root s.unit.members s.listed true
      (fun first globals _ _ => by
        rw [List.map_id']
        exact simpleProgram_withoutParents t.root first (first :: globals)) rfl
    rw [List.map_id'] at hwrappers
    rw [List.map_append, Declaration.map_map_typeDecl, ← hwrappers]
    rfl

/-- Whatever the parent links say, the build does what it does without them, and reports of the
places of namespaces besides. -/
theorem declare_withoutParents (options : DeclarationOptions) :
    t.withoutParents.declare options = (t.declare options).map (·.withoutPlacement) := by
  rw [declare_eq, declare_eq,
    withoutParents_sameOutline.sources_follows.eq fun _ _ => headersAlike_withoutParents]
  cases t.sources with
  | error e => exact congrArg Except.error e.rename_id
  | ok s =>
    have hroot : t.withoutParents.rootDeclaration (s.rename (fun i => i) (·.withoutPlacement)).unit
        (t.withoutParents.rootChildren options (s.rename (fun i => i) (·.withoutPlacement))) =
          (t.rootDeclaration s.unit (t.rootChildren options s)).withoutPlacement := by
      rw [rootChildren_withoutParents]
      exact withoutParents_sameOutline.rootDeclaration_eq s.unit _
    exact congrArg Except.ok hroot

/-- Two trees that differ in their parent links fail with the same fault, or else what is built of
them is the same but for what is reported of the places of namespaces. -/
theorem declare_of_withoutParents (h : t.withoutParents = t'.withoutParents)
    (options : DeclarationOptions) :
    (∃ e, t.declare options = .error e ∧ t'.declare options = .error e) ∨
    ∃ r r', t.declare options = .ok r ∧ t'.declare options = .ok r' ∧
      r'.withoutPlacement = r.withoutPlacement := by
  have hsame : (t.declare options).map (·.withoutPlacement) =
      (t'.declare options).map (·.withoutPlacement) := by
    rw [← declare_withoutParents, ← declare_withoutParents, h]
  cases hr : t.declare options with
  | error e =>
    cases hr' : t'.declare options with
    | error e' =>
      rw [hr, hr'] at hsame
      cases hsame
      exact .inl ⟨e, rfl, rfl⟩
    | ok r' =>
      rw [hr, hr'] at hsame
      cases hsame
  | ok r =>
    cases hr' : t'.declare options with
    | error e' =>
      rw [hr, hr'] at hsame
      cases hsame
    | ok r' =>
      rw [hr, hr'] at hsame
      exact .inr ⟨r, r', rfl, rfl, (Except.ok.inj hsame).symm⟩

/-- The file `namespace A;` with the parents that its nodes have. -/
def sampleScoped : SyntaxTree :=
  let a : Arena := {}
  let a := (a.add .identifier .identifierName ⟨10, 11⟩ (⟨"A"⟩ : Syntax.Identifier)).2
  let a := (a.add .namespaceDecl .fileScopedNamespaceDeclaration ⟨0, 12⟩
    ({ name := .ofNat 0 } : Syntax.Namespace)).2
  let a := (a.add .compilationUnit .compilationUnit ⟨0, 12⟩
    ({ members := [.ofNat 1] } : Syntax.CompilationUnit)).2
  ⟨⟨0⟩, "scoped.cs", {}, { a with parents := #[.ofNat 1, .ofNat 2, .missing] }, .ofNat 2⟩

/-- The same file where the namespace is its own parent, and that of the unit does not exist. -/
def sampleAstray : SyntaxTree :=
  { sampleScoped with
    arena := { sampleScoped.arena with parents := #[.missing, .ofNat 1, .ofNat 40] } }

theorem sampleAstray_declare_of_withoutParents :
    ∃ r r', sampleScoped.declare {} = .ok r ∧ sampleAstray.declare {} = .ok r' ∧
      r'.withoutPlacement = r.withoutPlacement ∧
      r.allDiagnostics.map (·.code) = [] ∧
      r'.allDiagnostics.map (·.code) = [Code.secondFileScopedNamespace] := by
  have hparents : sampleScoped.withoutParents = sampleAstray.withoutParents := rfl
  have hcodes : (sampleScoped.declare {}).toOption.map (·.allDiagnostics.map (·.code)) =
      some [] := by decide +kernel
  have hcodes' : (sampleAstray.declare {}).toOption.map (·.allDiagnostics.map (·.code)) =
      some [Code.secondFileScopedNamespace] := by decide +kernel
  obtain ⟨e, herror, -⟩ | ⟨r, r', hr, hr', hsame⟩ := declare_of_withoutParents hparents {}
  · rw [herror] at hcodes
    cases hcodes
  · rw [hr] at hcodes
    rw [hr'] at hcodes'
    exact ⟨r, r', hr, hr', hsame, Option.some.inj hcodes, Option.some.inj hcodes'⟩

end SyntaxTree

end DeclTree
