import DeclTree.Proofs.Messages
/-!
What comes with the declarations of a file names the tree of the file: the references and locations
of namespaces and types, made up or not, and those of the root, its directives and all diagnostics.
So nothing of it can be taken for a place in another tree.
-/
namespace DeclTree

namespace Declaration
variable {id : TreeId} {row others inner : List Declaration}

/-- The declarations of a row lie in a tree, at any depth. -/
def LieIn (id : TreeId) (row : List Declaration) : Prop :=
  ∀ d ∈ flatten row, d.reference.tree = id ∧ d.nameLocation.tree = id

theorem lieIn_nil : LieIn id [] := by simp [LieIn]

theorem lieIn_append : LieIn id (row ++ others) ↔ LieIn id row ∧ LieIn id others := by
  simp only [LieIn, flatten_append, List.forall_mem_append]

theorem lieIn_perm (h : row.Perm others) (hrow : LieIn id row) : LieIn id others :=
  fun d hd => hrow d ((flatten_perm h).mem_iff.2 hd)

theorem lieIn_singleton {d : Declaration} (hreference : d.reference.tree = id)
    (hname : d.nameLocation.tree = id) (hchildren : LieIn id d.children) : LieIn id [d] := by
  intro e he
  rw [flatten_singleton] at he
  obtain rfl | he := List.mem_cons.1 he
  · exact ⟨hreference, hname⟩
  · exact hchildren e he

theorem lieIn_nest {headers : List NamespaceHeader}
    (h : ∀ header ∈ headers, header.reference.tree = id ∧ header.nameLocation.tree = id)
    (hinner : LieIn id inner) : LieIn id (nest headers inner) := by
  induction headers with
  | nil => exact hinner
  | cons header headers ih =>
    obtain ⟨hreference, hname⟩ := h header List.mem_cons_self
    exact lieIn_singleton hreference hname
      (ih fun other hother => h other (List.mem_cons_of_mem header hother))

theorem lieIn_leaves {leaves : List TypeDeclaration}
    (h : ∀ ty ∈ leaves, ty.children = [] ∧
      ty.header.reference.tree = id ∧ ty.header.nameLocation.tree = id) :
    LieIn id (leaves.map .typeDecl) := by
  induction leaves with
  | nil => exact lieIn_nil
  | cons ty rest ih =>
    obtain ⟨hchildren, hreference, hname⟩ := h ty List.mem_cons_self
    rw [List.map_cons, ← List.singleton_append, lieIn_append]
    refine ⟨lieIn_singleton hreference hname ?_,
      ih fun other hother => h other (List.mem_cons_of_mem ty hother)⟩
    rw [children, hchildren]
    exact lieIn_nil

end Declaration

/-- The headers only have other diagnostics. -/
theorem NamespaceHeader.exists_of_mem_reportFirst {diagnostics : List Diagnostic}
    {headers : List NamespaceHeader} {header : NamespaceHeader}
    (h : header ∈ reportFirst diagnostics headers) : ∃ other ∈ headers,
      header.reference = other.reference ∧ header.nameLocation = other.nameLocation := by
  cases headers with
  | nil => cases h
  | cons first headers =>
    obtain rfl | h := List.mem_cons.1 h
    · exact ⟨first, List.mem_cons_self, rfl, rfl⟩
    · exact ⟨header, List.mem_cons_of_mem first h, rfl, rfl⟩

namespace SyntaxTree
variable {t : SyntaxTree} {i : NodeIndex}

theorem lieIn_wrappers (t : SyntaxTree) (i : NodeIndex) (members : NodeList)
    (listed : List ListedMember) (acceptsStatements : Bool) :
    Declaration.LieIn t.id ((t.wrappers i members listed acceptsStatements).map .typeDecl) := by
  refine Declaration.lieIn_leaves fun ty hty => ⟨(mem_wrappers hty).1, ?_⟩
  unfold wrappers at hty
  obtain hprogram | houtside := List.mem_append.1 hty
  · split at hprogram
    · cases List.mem_singleton.1 hprogram
      exact ⟨rfl, rfl⟩
    · cases hprogram
  · split at houtside
    · cases List.mem_singleton.1 houtside
      exact ⟨rfl, rfl⟩
    · cases houtside

theorem tree_of_mem_namespaceHeaders {kind : SyntaxKind} {d : Syntax.Namespace}
    {header : NamespaceHeader} (h : header ∈ t.namespaceHeaders i kind d) :
    header.reference.tree = t.id ∧ header.nameLocation.tree = t.id := by
  obtain ⟨other, hother, hreference, hname⟩ := NamespaceHeader.exists_of_mem_reportFirst h
  rw [hreference, hname]
  obtain hother | hother := List.mem_append.1 hother
  · obtain ⟨s, -, rfl⟩ := List.mem_map.1 hother
    exact ⟨rfl, rfl⟩
  · rw [List.mem_singleton.1 hother]
    exact ⟨rfl, rfl⟩

theorem tree_of_mem_scriptHeaders {options : DeclarationOptions} {header : NamespaceHeader}
    (h : header ∈ t.scriptHeaders options) :
    header.reference.tree = t.id ∧ header.nameLocation.tree = t.id := by
  obtain ⟨name, -, rfl⟩ := List.mem_map.1 h
  exact ⟨rfl, rfl⟩

end SyntaxTree

namespace Builder
variable {b : Builder} {i : NodeIndex}

theorem Opens.lieIn_close {o : Opened} {inner : List Declaration} (ho : b.Opens i o)
    (htypes : ∀ header members, o = .ofType header members →
      ∃ types : List TypeDeclaration, inner = types.map .typeDecl)
    (hinner : Declaration.LieIn b.tree.id inner) :
    Declaration.LieIn b.tree.id [b.close o inner] := by
  cases ho with
  | @ofNamespace k d listed =>
    rw [close, closeNamespace, ← SyntaxTree.nest_namespaceHeaders]
    refine Declaration.lieIn_nest (fun _ => SyntaxTree.tree_of_mem_namespaceHeaders) ?_
    exact Declaration.lieIn_append.2 ⟨hinner, b.tree.lieIn_wrappers i d.members listed false⟩
  | ofType =>
    obtain ⟨types, rfl⟩ := htypes _ _ rfl
    rw [close, closeType_map]
    exact Declaration.lieIn_singleton rfl rfl hinner
  | ofDelegate => exact Declaration.lieIn_singleton rfl rfl Declaration.lieIn_nil
  | ofEnum => exact Declaration.lieIn_singleton rfl rfl Declaration.lieIn_nil

/-- What is built from a tree lies in the tree. -/
theorem lieIn_of_declarationsFrom {depth : Nat} {members : NodeList} {row : List Declaration}
    (hrow : b.declarationsFrom depth members = .ok row) : Declaration.LieIn b.tree.id row := by
  refine declarationsFrom_induction (P := fun _ row => Declaration.LieIn b.tree.id row)
    Declaration.lieIn_nil ?_ hrow
  intro i o rest inner later ho htypes hinner hlater
  rw [← List.singleton_append, Declaration.lieIn_append]
  exact ⟨ho.lieIn_close htypes hinner, hlater⟩

end Builder

namespace RootDeclaration

/-- The references of a file's declarations. -/
def references (r : RootDeclaration) : List SyntaxReference :=
  r.reference :: r.declarations.map (·.reference)

/-- The locations that come with a file's declarations: of names, of referenced files and of
diagnostics. -/
def locations (r : RootDeclaration) : List Location :=
  r.nameLocation :: (r.declarations.map (·.nameLocation) ++ r.referencedFiles.map (·.location) ++
    r.allDiagnostics.map (·.location))

/-- All references and locations are of one tree. -/
structure LiesIn (r : RootDeclaration) (id : TreeId) : Prop where
  references : ∀ reference ∈ r.references, reference.tree = id
  locations : ∀ location ∈ r.locations, location.tree = id

end RootDeclaration

namespace SyntaxTree
variable {t : SyntaxTree} {options : DeclarationOptions} {r : RootDeclaration}

theorem lieIn_rootChildren {s : Sources} (hs : t.sources = .ok s)
    (options : DeclarationOptions) : Declaration.LieIn t.id (t.rootChildren options s) := by
  obtain ⟨hints, -, -, -, -, hbuilt⟩ := sources_stages hs
  rw [Builder.declarationsOf_eq_size] at hbuilt
  have hrow : Declaration.LieIn t.id s.built := Builder.lieIn_of_declarationsFrom hbuilt
  cases hscript : t.isScript with
  | false =>
    rw [rootChildren_ordinary hscript]
    exact Declaration.lieIn_append.2 ⟨hrow, t.lieIn_wrappers _ _ _ _⟩
  | true =>
    have hparts := Declaration.lieIn_perm (Declaration.perm_namespaces_types s.built).symm hrow
    obtain ⟨hnamespaces, htypes⟩ := Declaration.lieIn_append.1 hparts
    rw [rootChildren_scripted hscript]
    refine Declaration.lieIn_append.2 ⟨hnamespaces, ?_⟩
    exact Declaration.lieIn_nest (fun _ => tree_of_mem_scriptHeaders)
      (Declaration.lieIn_singleton rfl rfl htypes)

theorem tree_of_mem_referencedFiles {directives : NodeList} {f : ReferencedFile}
    (h : f ∈ t.referencedFiles directives) : f.location.tree = t.id := by
  obtain ⟨i, -, hi⟩ := List.mem_filterMap.1 h
  obtain ⟨hd, -, hi⟩ := Option.bind_eq_some_iff.1 hi
  split at hi
  · cases hi
  · obtain ⟨d, -, hi⟩ := Option.bind_eq_some_iff.1 hi
    split at hi
    · cases hi
    · cases hi
      rfl

/-- The declarations of a file lie in its tree. -/
theorem liesIn_of_declare (hr : t.declare options = .ok r) : r.LiesIn t.id := by
  have hdiagnostics : ∀ d ∈ r.allDiagnostics, d.location.tree = t.id := by
    intro d hd
    obtain ⟨i, -, hlocation⟩ := (reportable_of_mem_allDiagnostics hr hd).exists_location
    rw [hlocation]
    rfl
  obtain ⟨s, hs, rfl⟩ := declare_eq_ok hr
  have hdeclarations : ∀ d ∈ (t.rootDeclaration s.unit (t.rootChildren options s)).declarations,
      d.reference.tree = t.id ∧ d.nameLocation.tree = t.id := by
    rw [RootDeclaration.declarations_eq_flatten]
    exact lieIn_rootChildren hs options
  have hfiles : ∀ f ∈ (t.rootDeclaration s.unit (t.rootChildren options s)).referencedFiles,
      f.location.tree = t.id := by
    intro f hf
    cases hscript : t.isScript with
    | true =>
      simp only [rootDeclaration, hscript, ↓reduceIte] at hf
      exact tree_of_mem_referencedFiles hf
    | false => simp [rootDeclaration, hscript] at hf
  constructor
  · intro reference hreference
    obtain rfl | hreference := List.mem_cons.1 hreference
    · rfl
    · obtain ⟨d, hd, rfl⟩ := List.mem_map.1 hreference
      exact (hdeclarations d hd).1
  · intro location hlocation
    obtain rfl | hlocation := List.mem_cons.1 hlocation
    · rfl
    · obtain hlocation | hlocation := List.mem_append.1 hlocation
      · obtain hlocation | hlocation := List.mem_append.1 hlocation
        · obtain ⟨d, hd, rfl⟩ := List.mem_map.1 hlocation
          exact (hdeclarations d hd).2
        · obtain ⟨f, hf, rfl⟩ := List.mem_map.1 hlocation
          exact hfiles f hf
      · obtain ⟨d, hd, rfl⟩ := List.mem_map.1 hlocation
        exact hdiagnostics d hd

theorem resolve?_of_tree_ne {reference : SyntaxReference} (h : reference.tree ≠ t.id) :
    t.resolve? reference = none := if_neg h

end SyntaxTree

end DeclTree
