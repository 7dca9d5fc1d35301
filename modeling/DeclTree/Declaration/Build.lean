import DeclTree.Declaration.Frames
import DeclTree.Declaration.Traversal
import DeclTree.Declaration.Lookup
/-!
The declarations of one file. Types and namespaces of an ordinary file go below the root; the types
of a script go into its class, and only its namespaces stay below the root.
-/
namespace DeclTree

/-- What is known of the `using` directives of a unit. -/
structure UsingSummary where
  hasUsings : Bool := false
  hasGlobalUsings : Bool := false
  /-- A global directive has been reported to come too late. -/
  reported : Bool := false
  diagnostics : List Diagnostic := []

namespace SyntaxTree

variable (t : SyntaxTree)

/-- Adds what one more directive tells. Of the global ones that do not come before the other ones only
the first is reported. -/
def noteUsing (known : UsingSummary) (d : Syntax.UsingDirective) : UsingSummary :=
  if d.globalKeyword.isMissing then { known with hasUsings := true }
  else if known.hasUsings && !known.reported then
    { known with
      hasGlobalUsings := true
      reported := true
      diagnostics :=
        known.diagnostics ++ [⟨Code.globalUsingOutOfOrder, t.location d.globalKeyword, []⟩] }
  else { known with hasGlobalUsings := true }

def usingSummary (usings : List Syntax.UsingDirective) : UsingSummary :=
  usings.foldl t.noteUsing {}

/-- The diagnostic for global `using` directives that do not come before the other ones, at the first
that comes too late. -/
def usingOrderDiagnostics (usings : List Syntax.UsingDirective) : List Diagnostic :=
  let isGlobal (d : Syntax.UsingDirective) : Bool := d.globalKeyword.isPresent
  match (usings.dropWhile isGlobal).find? isGlobal with
  | some late => [⟨Code.globalUsingOutOfOrder, t.location late.globalKeyword, []⟩]
  | none => []

theorem hasUsings_foldl (usings : List Syntax.UsingDirective) (known : UsingSummary) :
    (usings.foldl t.noteUsing known).hasUsings =
      (known.hasUsings || usings.any (·.globalKeyword.isMissing)) := by
  induction usings generalizing known with
  | nil => simp
  | cons d usings ih =>
    rw [List.foldl_cons, ih, List.any_cons]
    cases hd : d.globalKeyword.isMissing with
    | true => simp [noteUsing, hd]
    | false =>
      simp only [noteUsing, hd, Bool.false_eq_true, ↓reduceIte, Bool.false_or]
      split <;> rfl

theorem hasGlobalUsings_foldl (usings : List Syntax.UsingDirective) (known : UsingSummary) :
    (usings.foldl t.noteUsing known).hasGlobalUsings =
      (known.hasGlobalUsings || usings.any (·.globalKeyword.isPresent)) := by
  induction usings generalizing known with
  | nil => simp
  | cons d usings ih =>
    rw [List.foldl_cons, ih, List.any_cons]
    cases hd : d.globalKeyword.isMissing with
    | true => simp [noteUsing, NodeIndex.isPresent, hd]
    | false =>
      simp only [noteUsing, NodeIndex.isPresent, hd, Bool.false_eq_true, ↓reduceIte, Bool.not_false,
        Bool.true_or, Bool.or_true]
      split <;> rfl

/-- After one report there is no other. -/
theorem diagnostics_foldl_of_reported (usings : List Syntax.UsingDirective) {known : UsingSummary}
    (h : known.reported = true) :
    (usings.foldl t.noteUsing known).diagnostics = known.diagnostics := by
  induction usings generalizing known with
  | nil => rfl
  | cons d usings ih =>
    rw [List.foldl_cons]
    cases hd : d.globalKeyword.isMissing with
    | true => simpa [noteUsing, hd, h] using @ih { known with hasUsings := true } h
    | false => simpa [noteUsing, hd, h] using @ih { known with hasGlobalUsings := true } h

/-- After a directive that is not global the next global one is reported. -/
theorem diagnostics_foldl_of_hasUsings (usings : List Syntax.UsingDirective) {known : UsingSummary}
    (h : known.hasUsings = true) (hreported : known.reported = false) :
    (usings.foldl t.noteUsing known).diagnostics = known.diagnostics ++
      match usings.find? (·.globalKeyword.isPresent) with
      | some late => [⟨Code.globalUsingOutOfOrder, t.location late.globalKeyword, []⟩]
      | none => [] := by
  induction usings generalizing known with
  | nil => simp
  | cons d usings ih =>
    rw [List.foldl_cons]
    cases hd : d.globalKeyword.isMissing with
    | true =>
      rw [List.find?_cons_of_neg (by simp [NodeIndex.isPresent, hd]), noteUsing, if_pos hd]
      exact ih rfl hreported
    | false =>
      rw [List.find?_cons_of_pos (by simp [NodeIndex.isPresent, hd])]
      simp only [noteUsing, hd, h, hreported, Bool.false_eq_true, ↓reduceIte, Bool.not_false,
        Bool.and_self]
      exact t.diagnostics_foldl_of_reported usings rfl

theorem diagnostics_foldl (usings : List Syntax.UsingDirective) {known : UsingSummary}
    (h : known.hasUsings = false) (hreported : known.reported = false) :
    (usings.foldl t.noteUsing known).diagnostics =
      known.diagnostics ++ t.usingOrderDiagnostics usings := by
  induction usings generalizing known with
  | nil => simp [usingOrderDiagnostics]
  | cons d usings ih =>
    rw [List.foldl_cons]
    cases hd : d.globalKeyword.isMissing with
    | true =>
      have hother : d.globalKeyword.isPresent = false := by simp [NodeIndex.isPresent, hd]
      rw [noteUsing, if_pos hd, usingOrderDiagnostics, List.dropWhile_cons_of_neg (by simp [hother]),
        List.find?_cons_of_neg (by simp [hother])]
      exact t.diagnostics_foldl_of_hasUsings usings rfl hreported
    | false =>
      have hnote : t.noteUsing known d = { known with hasGlobalUsings := true } := by
        simp [noteUsing, hd, h]
      have hskip : t.usingOrderDiagnostics (d :: usings) = t.usingOrderDiagnostics usings := by
        simp [usingOrderDiagnostics, NodeIndex.isPresent, hd]
      rw [hnote, hskip]
      exact @ih { known with hasGlobalUsings := true } h hreported

/-- The files that `#r` directives refer to. Directives that error recovery has made, and those
without a file name, do not count. -/
def referencedFiles (directives : NodeList) : List ReferencedFile :=
  directives.filterMap fun i => do
    let h ← t.arena.get? i
    if h.hasFlag NodeFlags.containsDiagnostics then none
    else
      let d : Syntax.ReferenceDirective ← t.arena.payload? .referenceDirective i
      if d.file.isEmpty then none else some ⟨d.file, t.location i⟩

/-- The root with the declarations below it. -/
def rootDeclaration (unit : Syntax.CompilationUnit) (children : List Declaration) :
    RootDeclaration :=
  let usings := t.usingSummary (t.arena.usingDirectives unit.usings)
  { reference := t.reference t.root
    nameLocation := t.location t.root
    diagnostics := usings.diagnostics
    hasGlobalUsings := usings.hasGlobalUsings
    hasUsings := usings.hasUsings
    hasExternAliases := !unit.externs.isEmpty
    children
    referencedFiles := if t.isScript then t.referencedFiles unit.referenceDirectives else []
    hasAssemblyAttributes := !unit.attributeLists.isEmpty
    globalAliasHints := t.arena.aliasHints unit.usings true }

/-- What the root says of its `using` directives depends on each of them and on which come first. -/
theorem rootDeclaration_eq_any (unit : Syntax.CompilationUnit) (children : List Declaration) :
    t.rootDeclaration unit children =
      let usings := t.arena.usingDirectives unit.usings
      { reference := t.reference t.root
        nameLocation := t.location t.root
        diagnostics := t.usingOrderDiagnostics usings
        hasGlobalUsings := usings.any (·.globalKeyword.isPresent)
        hasUsings := usings.any (·.globalKeyword.isMissing)
        hasExternAliases := !unit.externs.isEmpty
        children
        referencedFiles := if t.isScript then t.referencedFiles unit.referenceDirectives else []
        hasAssemblyAttributes := !unit.attributeLists.isEmpty
        globalAliasHints := t.arena.aliasHints unit.usings true } := by
  rw [rootDeclaration, usingSummary, hasUsings_foldl, hasGlobalUsings_foldl,
    t.diagnostics_foldl _ rfl rfl]
  rfl

/-- The kind of the root must be that of a compilation unit. -/
def checkRoot : Except Fault Unit :=
  match t.arena.kindOf? t.root with
  | some .compilationUnit => .ok ()
  | found => .error (.rootNotCompilationUnit t.id t.root found)

/-- The hints of the file's aliases. -/
def fileHints : Except Fault AttributeHints :=
  match t.arena.fileAliasHints? t.root with
  | some hints => .ok hints
  | none => .error (.endless t.id)

/-- The declarations below the root of an ordinary file. -/
def regularChildren (b : Builder) (unit : Syntax.CompilationUnit) :
    Except Fault (List Declaration) := do
  let listed ← t.listMembers .compilationUnit unit.members
  let children ← b.declarationsOf (ListedMember.select listed .declaration)
  return children ++ (t.wrappers t.root unit.members listed true).map .typeDecl

/-- The declarations below the root of a script: its namespaces, and then its class. -/
def scriptChildren (b : Builder) (options : DeclarationOptions) (unit : Syntax.CompilationUnit) :
    Except Fault (List Declaration) := do
  let listed ← t.listMembers .compilationUnit unit.members
  let built ← b.declarationsOf (ListedMember.select listed .declaration)
  return built.filter (·.type?.isNone) ++
    [t.scriptClass options unit.members (built.filterMap (·.type?))]

/-- Builds the declarations of a file. The fault `endless` is the result where the build would never come
to an end. -/
def declare (options : DeclarationOptions) : Except Fault RootDeclaration := do
  t.checkRoot
  let b : Builder := ⟨t, ← t.fileHints⟩
  let unit : Syntax.CompilationUnit ← t.payload .compilationUnit .compilationUnit t.root
  let children ←
    if t.isScript then t.scriptChildren b options unit else t.regularChildren b unit
  return t.rootDeclaration unit children

end SyntaxTree

end DeclTree
