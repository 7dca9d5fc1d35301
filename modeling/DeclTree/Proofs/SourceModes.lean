import DeclTree.Proofs.Assembly
import DeclTree.Proofs.ModifierReports
import DeclTree.Proofs.Wrappers
/-!
A file read as an ordinary file and read as a script. Both readings build the same declarations and
fail with the same fault. They differ in where the types go that are not within namespaces, and in
what is made up.
-/
namespace DeclTree

namespace SyntaxTree

/-- The same file, read in a given mode. -/
def withKind (t : SyntaxTree) (mode : SourceKind) : SyntaxTree :=
  { t with options := { t.options with kind := mode } }

section Headers
variable {t : SyntaxTree} (mode : SourceKind)

theorem modifierDiagnostics_withKind (tokens : NodeList) (kind : TypeKind) :
    (t.withKind mode).modifierDiagnostics tokens kind = t.modifierDiagnostics tokens kind := by
  rw [modifierDiagnostics, modifierDiagnostics, listDiagnostics_eq_scan, listDiagnostics_eq_scan]
  rfl

theorem classHeader_withKind (hints : AttributeHints) (i : NodeIndex) (kind : TypeKind)
    (d : Syntax.TypeDecl) :
    (t.withKind mode).classHeader hints i kind d = t.classHeader hints i kind d := by
  simp only [classHeader, modifierDiagnostics_withKind]
  rfl

theorem delegateHeader_withKind (hints : AttributeHints) (i : NodeIndex) (d : Syntax.Delegate) :
    (t.withKind mode).delegateHeader hints i d = t.delegateHeader hints i d := by
  simp only [delegateHeader, modifierDiagnostics_withKind]
  rfl

theorem enumHeader_withKind (hints : AttributeHints) (i : NodeIndex) (d : Syntax.EnumDecl) :
    (t.withKind mode).enumHeader hints i d = t.enumHeader hints i d := by
  simp only [enumHeader, modifierDiagnostics_withKind]
  rfl

end Headers

end SyntaxTree

namespace Builder
variable {t : SyntaxTree} {hints : AttributeHints} (mode : SourceKind)

theorem openMember_withKind (i : NodeIndex) :
    (⟨t.withKind mode, hints⟩ : Builder).openMember i = (⟨t, hints⟩ : Builder).openMember i := by
  simp only [openMember, openType, openDelegate, openEnum, SyntaxTree.classHeader_withKind,
    SyntaxTree.delegateHeader_withKind, SyntaxTree.enumHeader_withKind]
  rfl

theorem closeNamespace_withKind (pending : OpenNamespace) (inner : List Declaration) :
    (⟨t.withKind mode, hints⟩ : Builder).closeNamespace pending inner =
      (⟨t, hints⟩ : Builder).closeNamespace pending inner := rfl

theorem step_withKind (frame : Frame) (state : State) :
    (⟨t.withKind mode, hints⟩ : Builder).step frame state =
      (⟨t, hints⟩ : Builder).step frame state := by
  cases frame with
  | visit member => simp only [step, openMember_withKind]
  | finishNamespace pending => simp only [step, closeNamespace_withKind]
  | finishType header => rfl

theorem run_withKind (steps : Nat) (state : State) :
    (⟨t.withKind mode, hints⟩ : Builder).run steps state =
      (⟨t, hints⟩ : Builder).run steps state := by
  induction steps generalizing state with
  | zero =>
    obtain ⟨stack, buckets⟩ := state
    cases stack <;> rfl
  | succ steps ih =>
    obtain ⟨stack, buckets⟩ := state
    cases stack with
    | nil => rfl
    | cons frame stack => simp only [run, step_withKind, ih]

theorem declarationsOf_withKind (members : NodeList) :
    (⟨t.withKind mode, hints⟩ : Builder).declarationsOf members =
      (⟨t, hints⟩ : Builder).declarationsOf members :=
  run_withKind mode _ _

end Builder

namespace Declaration

/-- Whether a declaration is made up for what stands outside types. -/
def isWrapper : Declaration → Bool
  | namespaceDecl _ _ => false
  | typeDecl ty => ty.header.kind.isWrapper

end Declaration

/-- What is directly below the root, but for the types that are made up for the unit. -/
def RootDeclaration.sourceChildren (r : RootDeclaration) : List Declaration :=
  r.children.filter fun d => !d.isWrapper

theorem Builder.isWrapper_eq_false {b : Builder} {depth : Nat} {members : NodeList}
    {row : List Declaration} (hrow : b.declarationsFrom depth members = .ok row) :
    ∀ d ∈ row, d.isWrapper = false := by
  refine declarationsFrom_induction (P := fun _ row => ∀ d ∈ row, d.isWrapper = false)
    (fun d hd => by cases hd) ?_ hrow
  intro i o rest inner later ho _ _ hlater d hd
  obtain rfl | hd := List.mem_cons.1 hd
  · cases ho with
    | ofNamespace =>
      simp only [close, closeNamespace, SyntaxTree.namespaceChain]
      split <;> rfl
    | ofType _ _ hkind => exact TypeKind.isWrapper_of_ofSyntax? hkind
    | ofDelegate => rfl
    | ofEnum => rfl
  · exact hlater d hd

namespace SyntaxTree
variable {t : SyntaxTree}

theorem sources_withKind (mode : SourceKind) : (t.withKind mode).sources = t.sources := by
  unfold sources
  simp only [Builder.declarationsOf_withKind]
  -- nothing else looks at the mode
  rfl

theorem declare_withKind (mode : SourceKind) (options : DeclarationOptions) :
    (t.withKind mode).declare options = (t.sources >>= fun s => .ok
      ((t.withKind mode).rootDeclaration s.unit ((t.withKind mode).rootChildren options s))) := by
  rw [declare_eq, sources_withKind]

theorem rootChildren_regular (options : DeclarationOptions) (s : Sources) :
    (t.withKind .regular).rootChildren options s =
      s.built ++ (t.wrappers t.root s.unit.members s.listed true).map .typeDecl := rfl

theorem rootChildren_script (options : DeclarationOptions) (s : Sources) :
    (t.withKind .script).rootChildren options s = s.built.filter (·.type?.isNone) ++
      [t.scriptClass options s.unit.members (s.built.filterMap (·.type?))] := rfl

/-- What an ordinary file has below its root is what is built, and the types made up for the unit. -/
theorem sourceChildren_regular (h : t.arena.Descends) {s : Sources} (hs : t.sources = .ok s)
    (options : DeclarationOptions) : RootDeclaration.sourceChildren
      ((t.withKind .regular).rootDeclaration s.unit
        ((t.withKind .regular).rootChildren options s)) = s.built := by
  obtain ⟨hints, -, -, -, hbuilt⟩ := sources_eq_ok h hs
  have hkeep := Builder.isWrapper_eq_false hbuilt
  rw [RootDeclaration.sourceChildren, rootDeclaration_children, rootChildren_regular,
    List.filter_append]
  have hbuiltKept : s.built.filter (fun d => !d.isWrapper) = s.built :=
    List.filter_eq_self.2 fun d hd => by simp [hkeep d hd]
  have hwrappersLeft : ((t.wrappers t.root s.unit.members s.listed true).map
      Declaration.typeDecl).filter (fun d => !d.isWrapper) = [] := by
    refine List.filter_eq_nil_iff.2 fun d hd => ?_
    obtain ⟨ty, hty, rfl⟩ := List.mem_map.1 hd
    simp [Declaration.isWrapper, (mem_wrappers hty).2]
  rw [hbuiltKept, hwrappersLeft, List.append_nil]

theorem names_scriptHeaders (options : DeclarationOptions) (members : NodeList)
    (inner : List TypeDeclaration) : (t.scriptHeaders options).map (·.name) ++
      [(t.scriptType options members inner).header.name] =
        Text.segments options.scriptClassName := by
  have hne : Text.segments options.scriptClassName ≠ [] := by
    simp [Text.segments, Text.split, Text.splitList]
  have hheaders : (t.scriptHeaders options).map (·.name) =
      (Text.segments options.scriptClassName).dropLast := by
    simp [scriptHeaders, Function.comp_def]
  have hname : (t.scriptType options members inner).header.name =
      (Text.segments options.scriptClassName).getLast hne := by
    simp [scriptType, TypeDeclaration.header, List.getLast?_eq_some_getLast hne]
  rw [hheaders, hname, List.dropLast_concat_getLast]

/-- A file read as a script fails with the fault of the ordinary file. Otherwise it has the same
declarations, of which the namespaces stay below the root while the types go into the class of the
script, and its root says the same of itself. -/
theorem declare_modes (t : SyntaxTree) (options : DeclarationOptions) (h : t.arena.Descends) :
    (∃ e, (t.withKind .regular).declare options = .error e ∧
      (t.withKind .script).declare options = .error e) ∨
    ∃ r s, (t.withKind .regular).declare options = .ok r ∧
      (t.withKind .script).declare options = .ok s ∧
      (∃ chain headers script,
        s.children = r.sourceChildren.filter (·.type?.isNone) ++ [chain] ∧
        [chain] = Declaration.nest headers [.typeDecl script] ∧
        headers.map (·.name) ++ [script.header.name] = Text.segments options.scriptClassName ∧
        script.header.kind =
          (if options.isSubmission then .submissionClass else .scriptClass) ∧
        script.children = r.sourceChildren.filterMap (·.type?) ∧
        List.Perm (r.sourceChildren.filter (·.type?.isNone) ++ script.children.map .typeDecl)
          r.sourceChildren) ∧
      s.reference = r.reference ∧ s.nameLocation = r.nameLocation ∧
      s.diagnostics = r.diagnostics ∧ s.hasUsings = r.hasUsings ∧
      s.hasGlobalUsings = r.hasGlobalUsings ∧ s.hasExternAliases = r.hasExternAliases ∧
      s.hasAssemblyAttributes = r.hasAssemblyAttributes ∧
      s.globalAliasHints = r.globalAliasHints := by
  rw [declare_withKind, declare_withKind]
  cases hs : t.sources with
  | error e => exact .inl ⟨e, rfl, rfl⟩
  | ok s =>
    refine .inr ⟨_, _, rfl, rfl, ?_, rfl, rfl, rfl, rfl, rfl, rfl, rfl, rfl⟩
    rw [sourceChildren_regular h hs, rootDeclaration_children, rootChildren_script]
    have hchain := t.nest_scriptHeaders options s.unit.members (s.built.filterMap (·.type?))
    exact ⟨_, _, _, rfl, hchain.symm, names_scriptHeaders options _ _, rfl, rfl,
      Declaration.perm_namespaces_types s.built⟩

theorem sampleMixed_declare_modes : ∃ r s chain headers script,
    (sampleMixed.withKind .regular).declare {} = .ok r ∧
      (sampleMixed.withKind .script).declare {} = .ok s ∧
      r.children.map (·.name) = ["D", "A", "Program", "<invalid-global-code>"] ∧
      s.children.map (·.name) = ["A", chain.name] ∧
      [chain] = Declaration.nest headers [.typeDecl script] ∧
      headers.map (·.name) ++ [script.header.name] = ["Script"] ∧
      script.children.map (·.header.name) = ["D"] ∧ s.reference = r.reference := by
  obtain ⟨r, hr⟩ : ∃ r, (sampleMixed.withKind .regular).declare {} = .ok r :=
    Outcome.exists_eq_ok (by decide +kernel)
  have hbuilt : ((sampleMixed.withKind .regular).declare {}).map (fun r =>
      (r.children.map (·.name), (r.sourceChildren.filter (·.type?.isNone)).map (·.name),
        (r.sourceChildren.filterMap (·.type?)).map (·.header.name))) =
      .ok (["D", "A", "Program", "<invalid-global-code>"], ["A"], ["D"]) := by decide +kernel
  rw [hr] at hbuilt
  obtain ⟨hchildren, hnamespaces, htypes⟩ :
      r.children.map (·.name) = ["D", "A", "Program", "<invalid-global-code>"] ∧
        (r.sourceChildren.filter (·.type?.isNone)).map (·.name) = ["A"] ∧
        (r.sourceChildren.filterMap (·.type?)).map (·.header.name) = ["D"] := by
    simpa using Except.ok.inj hbuilt
  obtain ⟨e, herror, -⟩ | ⟨r', s, hr', hs, ⟨chain, headers, script, hscript, hchain, hsegments, -,
      hmembers, -⟩, hreference, -⟩ := declare_modes sampleMixed {} Arena.sampleMixed_descends
  · rw [hr] at herror
    cases herror
  · obtain rfl : r = r' := Except.ok.inj (hr.symm.trans hr')
    refine ⟨r, s, chain, headers, script, hr, hs, hchildren, ?_, hchain, hsegments, ?_, hreference⟩
    · rw [hscript, List.map_append, hnamespaces]
      rfl
    · rw [hmembers, htypes]

end SyntaxTree

end DeclTree
