import DeclTree.Declaration.Frames
import DeclTree.Proofs.NameParts
import DeclTree.Proofs.Nesting
import Mathlib.Data.List.Forall2
/-!
Namespaces with dotted names. A declaration `namespace A.B.C` stands for one namespace for each
segment of the name, each in the one before it, with what is declared in the innermost one and all
that is wrong with the declaration on the outermost one.
-/
namespace DeclTree

section Headers
variable {t : SyntaxTree} {pending : OpenNamespace} {s : NameSegment}

/-- A namespace has the name of a segment, which is empty if the segment has no text, and its name is
where the simple name of the segment is. -/
structure NamedAfter (t : SyntaxTree) (segment : NodeIndex) (h : NamespaceHeader) : Prop where
  named : ∀ text, t.arena.Unqualified segment text → h.name = text
  unnamed : (∀ text, ¬ t.arena.Unqualified segment text) → h.name = ""
  nameLocation : ∃ simple, t.arena.SimpleName segment simple ∧ h.nameLocation = t.location simple

theorem NamedAfter.nameLocation_eq {h : NamespaceHeader} {segment simple : NodeIndex}
    (hnamed : NamedAfter t segment h) (hsimple : t.arena.SimpleName segment simple) :
    h.nameLocation = t.location simple := by
  obtain ⟨other, hother, hplace⟩ := hnamed.nameLocation
  rw [hplace, ← Arena.simpleName_eq_iff.2 hother, Arena.simpleName_eq_iff.2 hsimple]

/-- What the namespace for an outer segment says of itself, but for diagnostics. -/
structure OuterFor (t : SyntaxTree) (s : NameSegment) (h : NamespaceHeader) : Prop
    extends NamedAfter t s.segment h where
  reference : h.reference = t.reference s.upTo
  hasUsings : h.hasUsings = false
  hasExternAliases : h.hasExternAliases = false

/-- What the namespace for the last segment says of itself, but for diagnostics. -/
structure InnermostFor (t : SyntaxTree) (pending : OpenNamespace) (s : NameSegment)
    (h : NamespaceHeader) : Prop extends NamedAfter t s.segment h where
  reference : h.reference = t.reference pending.node
  hasUsings : h.hasUsings = true ↔ pending.parts.usings ≠ []
  hasExternAliases : h.hasExternAliases = true ↔ pending.parts.externs ≠ []

theorem namedAfter_of_segmentText {h : NamespaceHeader} {segment : NodeIndex}
    (hname : h.name = t.arena.segmentText segment)
    (hplace : h.nameLocation = t.location (t.arena.simpleName segment)) :
    NamedAfter t segment h where
  named _ htext := hname.trans (Arena.segmentText_of_unqualified htext)
  unnamed hnone := hname.trans (Arena.segmentText_of_forall_not hnone)
  nameLocation := ⟨_, Arena.simpleName_eq_iff.1 rfl, hplace⟩

theorem outerFor_outerHeader (t : SyntaxTree) (s : NameSegment) (diagnostics : List Diagnostic) :
    OuterFor t s { t.outerHeader s with diagnostics } where
  toNamedAfter := namedAfter_of_segmentText rfl rfl
  reference := rfl
  hasUsings := rfl
  hasExternAliases := rfl

theorem innermostFor_innerHeader (t : SyntaxTree) (pending : OpenNamespace) (s : NameSegment)
    (diagnostics : List Diagnostic) :
    InnermostFor t pending s
      { t.innerHeader pending.node pending.parts s.segment with diagnostics } where
  toNamedAfter := namedAfter_of_segmentText rfl rfl
  reference := rfl
  hasUsings := by simp [SyntaxTree.innerHeader]
  hasExternAliases := by simp [SyntaxTree.innerHeader]

end Headers

namespace Builder
variable {b : Builder} {pending : OpenNamespace} {inner : List Declaration}

/-- How a namespace declaration falls into namespaces for its outer segments and for its last. -/
structure Decomposes (b : Builder) (pending : OpenNamespace) (inner : List Declaration)
    (outer : List NameSegment) (last : NameSegment) (headers : List NamespaceHeader)
    (innermost : NamespaceHeader) : Prop where
  /-- Each namespace holds the next one only, and the innermost holds all that is declared. -/
  nested : [b.closeNamespace pending inner] =
    Declaration.nest (headers ++ [innermost]) (inner ++ pending.wrappers.map .typeDecl)
  forOuter : List.Forall₂ (OuterFor b.tree) outer headers
  forLast : InnermostFor b.tree pending last innermost
  /-- The outermost namespace has the diagnostics of all. -/
  reports : (headers ++ [innermost]).map (·.diagnostics) =
    b.tree.namespaceDiagnostics pending.node pending.kind pending.parts ::
      List.replicate outer.length []

theorem exists_decomposes_of_segments {outer : List NameSegment} {last : NameSegment}
    (h : b.tree.arena.segments pending.parts.name = outer ++ [last]) :
    ∃ headers innermost, b.Decomposes pending inner outer last headers innermost := by
  have hnest := b.tree.nest_namespaceHeaders pending.node pending.kind pending.parts
    (inner ++ pending.wrappers.map .typeDecl)
  have hheaders (s : NameSegment) : OuterFor b.tree s (b.tree.outerHeader s) :=
    outerFor_outerHeader b.tree s []
  rw [SyntaxTree.namespaceHeaders, h, List.dropLast_concat, List.getLast?_concat] at hnest
  cases outer with
  | nil => exact ⟨[], _, hnest.symm, .nil, innermostFor_innerHeader b.tree pending last _, rfl⟩
  | cons first between =>
    refine ⟨{ b.tree.outerHeader first with
        diagnostics := b.tree.namespaceDiagnostics pending.node pending.kind pending.parts } ::
      between.map b.tree.outerHeader, b.tree.innerHeader pending.node pending.parts last.segment,
      hnest.symm, ?_, innermostFor_innerHeader b.tree pending last [], ?_⟩
    · refine .cons (outerFor_outerHeader b.tree first _) ?_
      rw [List.forall₂_map_right_iff, List.forall₂_same]
      exact fun s _ => hheaders s
    · have hnone : (fun h : NamespaceHeader => h.diagnostics) ∘ b.tree.outerHeader =
          fun _ => [] := rfl
      simp [hnone, SyntaxTree.innerHeader, List.replicate_succ']

/-- A namespace declaration with a name of some segments is a chain of as many namespaces. -/
theorem closeNamespace_decomposes {segments : List NameSegment} (b : Builder)
    (pending : OpenNamespace) (inner : List Declaration)
    (h : b.tree.arena.Dotted pending.parts.name segments) :
    ∃ outer last headers innermost, segments = outer ++ [last] ∧
      b.Decomposes pending inner outer last headers innermost := by
  obtain ⟨outer, last, hsegments⟩ := h.exists_eq_concat
  obtain ⟨headers, innermost, hparts⟩ :=
    exists_decomposes_of_segments (h.segments_eq.trans hsegments)
  exact ⟨outer, last, headers, innermost, hsegments, hparts⟩

/-- A file with the declaration of `global::A.B<>.`, which has a name with no last segment. -/
def sampleDotted : SyntaxTree :=
  let a : Arena := {}
  let a := (a.add .identifier .identifierName ⟨10, 16⟩ (⟨"global"⟩ : Syntax.Identifier)).2
  let a := (a.add .identifier .identifierName ⟨18, 19⟩ (⟨"A"⟩ : Syntax.Identifier)).2
  let a := (a.add .qualifiedName .aliasQualifiedName ⟨10, 19⟩
    (⟨.ofNat 0, .ofNat 1⟩ : Syntax.QualifiedName)).2
  let a := (a.add .identifier .identifierToken ⟨20, 21⟩ (⟨"B"⟩ : Syntax.Identifier)).2
  let a := (a.add .genericName .genericName ⟨20, 23⟩
    ({ identifier := .ofNat 3 } : Syntax.GenericName)).2
  let a := (a.add .qualifiedName .qualifiedName ⟨10, 23⟩
    (⟨.ofNat 2, .ofNat 4⟩ : Syntax.QualifiedName)).2
  let a := (a.add .qualifiedName .qualifiedName ⟨10, 24⟩
    (⟨.ofNat 5, .missing⟩ : Syntax.QualifiedName)).2
  let a := (a.add .externAlias .externAliasDirective ⟨26, 43⟩ ({} : Syntax.ExternAlias)).2
  let a := (a.add .namespaceDecl .namespaceDeclaration ⟨0, 45⟩
    ({ name := .ofNat 6, externs := [.ofNat 7] } : Syntax.Namespace)).2
  let a := (a.add .compilationUnit .compilationUnit ⟨0, 45⟩
    ({ members := [.ofNat 8] } : Syntax.CompilationUnit)).2
  ⟨⟨0⟩, "dotted.cs", {}, a, .ofNat 9⟩

theorem sampleDotted_dotted : sampleDotted.arena.Dotted (.ofNat 6)
    [⟨.ofNat 2, .ofNat 2⟩, ⟨.ofNat 4, .ofNat 5⟩, ⟨.missing, .ofNat 6⟩] :=
  .qualified (d := ⟨.ofNat 5, .missing⟩) (by decide +kernel) (by decide +kernel)
    (.qualified (d := ⟨.ofNat 2, .ofNat 4⟩) (by decide +kernel) (by decide +kernel)
      (.single (by decide +kernel)))

theorem sampleDotted_closeNamespace_decomposes :
    let parts : Syntax.Namespace := { name := .ofNat 6, externs := [.ofNat 7] }
    sampleDotted.arena.payload? .namespaceDecl (.ofNat 8) = some parts ∧
    ∃ first second innermost, (⟨sampleDotted, {}⟩ : Builder).Decomposes
      ⟨.ofNat 8, .namespaceDeclaration, parts, []⟩ []
      [⟨.ofNat 2, .ofNat 2⟩, ⟨.ofNat 4, .ofNat 5⟩] ⟨.missing, .ofNat 6⟩ [first, second] innermost ∧
      first.name = "A" ∧ second.name = "B" ∧ innermost.name = "" ∧
      first.nameLocation = ⟨⟨0⟩, ⟨18, 19⟩⟩ ∧ second.nameLocation = ⟨⟨0⟩, ⟨20, 23⟩⟩ := by
  intro parts
  refine ⟨by decide +kernel, ?_⟩
  obtain ⟨outer, last, headers, innermost, hsegments, hparts⟩ :=
    closeNamespace_decomposes ⟨sampleDotted, {}⟩
      ⟨.ofNat 8, .namespaceDeclaration, parts, []⟩ [] sampleDotted_dotted
  obtain rfl : outer = [⟨.ofNat 2, .ofNat 2⟩, ⟨.ofNat 4, .ofNat 5⟩] := by
    simpa using (congrArg List.dropLast hsegments).symm
  obtain rfl : last = ⟨.missing, .ofNat 6⟩ := by
    simpa using (congrArg List.getLast? hsegments).symm
  obtain ⟨first, _, hfirst, hrest, rfl⟩ := List.forall₂_cons_left_iff.1 hparts.forOuter
  obtain ⟨second, _, hsecond, hnil, rfl⟩ := List.forall₂_cons_left_iff.1 hrest
  obtain rfl := List.forall₂_nil_left_iff.1 hnil
  have hA : sampleDotted.arena.Unqualified (.ofNat 2) "A" :=
    .right (.inl (by decide +kernel)) (d := ⟨.ofNat 0, .ofNat 1⟩) (by decide +kernel)
      (.identifier (.inl (by decide +kernel)) (by decide +kernel))
  have hB : sampleDotted.arena.Unqualified (.ofNat 4) "B" :=
    .generic (by decide +kernel) (d := { identifier := .ofNat 3 }) (by decide +kernel)
      (by decide +kernel)
  have hright : sampleDotted.arena.SimpleName (.ofNat 2) (.ofNat 1) :=
    .aliased (by decide +kernel) (d := ⟨.ofNat 0, .ofNat 1⟩) (by decide +kernel)
  have hwhole : sampleDotted.arena.SimpleName (.ofNat 4) (.ofNat 4) := .itself (by decide +kernel)
  refine ⟨first, second, innermost, hparts, hfirst.named "A" hA, hsecond.named "B" hB, ?_, ?_, ?_⟩
  · refine hparts.forLast.unnamed fun text htext => ?_
    have hnone : sampleDotted.arena.lastIdentifier? .missing = none := by decide +kernel
    rw [Arena.lastIdentifier?_eq_some_iff_unqualified.2 htext] at hnone
    cases hnone
  · rw [hfirst.nameLocation_eq hright]
    decide +kernel
  · rw [hsecond.nameLocation_eq hwhole]
    decide +kernel

end Builder

end DeclTree
