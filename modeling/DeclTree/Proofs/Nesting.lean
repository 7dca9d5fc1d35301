import DeclTree.Declaration.NamespaceChain
import DeclTree.Declaration.Synthetic
/-!
Chains of namespaces as lists of headers. The namespaces of a dotted name and those around the class
of a script are both nested in this way around what they hold.
-/
namespace DeclTree

namespace Declaration

/-- Declarations with a chain of namespaces around them, outermost first. -/
def nest : List NamespaceHeader → List Declaration → List Declaration
  | [], inner => inner
  | header :: headers, inner => [.namespaceDecl header (nest headers inner)]

theorem nest_eq_foldr (headers : List NamespaceHeader) (d : Declaration) :
    nest headers [d] =
      [headers.foldr (fun header declaration => .namespaceDecl header [declaration]) d] := by
  induction headers with
  | nil => rfl
  | cons header headers ih => rw [nest, ih, List.foldr_cons]

theorem nest_append (outer headers : List NamespaceHeader) (inner : List Declaration) :
    nest (outer ++ headers) inner = nest outer (nest headers inner) := by
  induction outer with
  | nil => rfl
  | cons header outer ih => rw [List.cons_append, nest, nest, ih]

theorem sizes_nest (headers : List NamespaceHeader) (inner : List Declaration) :
    sizes (nest headers inner) = headers.length + sizes inner := by
  induction headers with
  | nil => simp [nest]
  | cons header headers ih =>
    simp only [nest, sizes, size, ih, List.length_cons]
    omega

end Declaration

namespace NamespaceHeader

/-- Gives some diagnostics to the first of a list of headers. -/
def reportFirst (diagnostics : List Diagnostic) : List NamespaceHeader → List NamespaceHeader
  | [] => []
  | header :: headers => { header with diagnostics } :: headers

theorem map_name_reportFirst (diagnostics : List Diagnostic) (headers : List NamespaceHeader) :
    (reportFirst diagnostics headers).map (·.name) = headers.map (·.name) := by
  cases headers <;> rfl

theorem length_reportFirst (diagnostics : List Diagnostic) (headers : List NamespaceHeader) :
    (reportFirst diagnostics headers).length = headers.length := by
  cases headers <;> rfl

end NamespaceHeader

namespace SyntaxTree
variable (t : SyntaxTree)

/-- What the namespaces of a declaration say of themselves, outermost first. The first one has the
diagnostics, and the last one stands for the declaration as a whole. -/
def namespaceHeaders (i : NodeIndex) (kind : SyntaxKind) (d : Syntax.Namespace) :
    List NamespaceHeader :=
  let segments := t.arena.segments d.name
  let innermost := t.innerHeader i d ((segments.getLast?.map (·.segment)).getD d.name)
  NamespaceHeader.reportFirst (t.namespaceDiagnostics i kind d)
    (segments.dropLast.map t.outerHeader ++ [innermost])

theorem nest_namespaceHeaders (i : NodeIndex) (kind : SyntaxKind) (d : Syntax.Namespace)
    (inner : List Declaration) :
    Declaration.nest (t.namespaceHeaders i kind d) inner = [t.namespaceChain i kind d inner] := by
  simp only [namespaceHeaders, namespaceChain]
  generalize (t.arena.segments d.name).dropLast.map t.outerHeader = outer
  cases outer with
  | nil => rfl
  | cons outermost between =>
    simp only [List.cons_append, NamespaceHeader.reportFirst, Declaration.nest,
      Declaration.nest_append, Declaration.nest_eq_foldr]

theorem length_namespaceHeaders (i : NodeIndex) (kind : SyntaxKind) (d : Syntax.Namespace) :
    (t.namespaceHeaders i kind d).length = (t.arena.segments d.name).length := by
  have hne : t.arena.segments d.name ≠ [] := t.arena.segmentsFrom_ne_nil _ _
  have hpos : 0 < (t.arena.segments d.name).length := List.length_pos_iff.2 hne
  rw [namespaceHeaders, NamespaceHeader.length_reportFirst, List.length_append, List.length_map,
    List.length_dropLast, List.length_singleton]
  omega

/-- The namespaces have the segments of the name as names. -/
theorem names_namespaceHeaders (i : NodeIndex) (kind : SyntaxKind) (d : Syntax.Namespace) :
    (t.namespaceHeaders i kind d).map (·.name) =
      (t.arena.segments d.name).map fun s => t.arena.segmentText s.segment := by
  have hne : t.arena.segments d.name ≠ [] := t.arena.segmentsFrom_ne_nil _ _
  rw [namespaceHeaders, NamespaceHeader.map_name_reportFirst]
  obtain ⟨outer, last, hsegments⟩ : ∃ outer last, t.arena.segments d.name = outer ++ [last] :=
    ⟨_, _, (List.dropLast_concat_getLast hne).symm⟩
  simp [hsegments, outerHeader, innerHeader]

/-- What the namespaces around the class of a script say of themselves. -/
def scriptHeaders (options : DeclarationOptions) : List NamespaceHeader :=
  (Text.segments options.scriptClassName).dropLast.map fun name =>
    { reference := t.reference t.root, nameLocation := t.location t.root, name }

/-- The class of a script without the namespaces around it. -/
def scriptType (options : DeclarationOptions) (members : NodeList)
    (inner : List TypeDeclaration) : TypeDeclaration :=
  let summary := t.arena.memberSummary members false false
  .mk { reference := t.reference t.root
        nameLocation := t.location t.root
        kind := if options.isSubmission then .submissionClass else .scriptClass
        name := (Text.segments options.scriptClassName).getLast?.getD ""
        modifiers := .ofList [.internalMod, .partialMod, .sealedMod]
        facts := summary.facts
        memberNames := summary.names } inner

theorem nest_scriptHeaders (options : DeclarationOptions) (members : NodeList)
    (inner : List TypeDeclaration) :
    Declaration.nest (t.scriptHeaders options) [.typeDecl (t.scriptType options members inner)] =
      [t.scriptClass options members inner] := by
  rw [Declaration.nest_eq_foldr, scriptHeaders, List.foldr_map, scriptClass,
    Text.segmentsFromEnd_eq_reverse, List.tail_reverse, List.foldl_reverse, List.head?_reverse]
  rfl

end SyntaxTree

end DeclTree
