import DeclTree.Declaration.Build
import DeclTree.Proofs.StackRecursion
/-!
What is built from a file before it matters whether the file is a script, and how the declarations
below the root are put together from it.
-/
namespace DeclTree

/-- The unit of a file, its checked members, and the declarations that those members become. -/
structure Sources where
  unit : Syntax.CompilationUnit
  listed : List ListedMember
  built : List Declaration

namespace SyntaxTree
variable (t : SyntaxTree)

/-- Builds what the unit of a file lists. -/
def sources : Except Fault Sources := do
  t.checkRoot
  let b : Builder := ⟨t, ← t.fileHints⟩
  let unit : Syntax.CompilationUnit ← t.payload .compilationUnit .compilationUnit t.root
  let listed ← t.listMembers .compilationUnit unit.members
  let built ← b.declarationsOf (ListedMember.select listed .declaration)
  return ⟨unit, listed, built⟩

/-- The declarations below the root, from those that the members of the unit become. -/
def rootChildren (options : DeclarationOptions) (s : Sources) : List Declaration :=
  if t.isScript then
    s.built.filter (·.type?.isNone) ++
      [t.scriptClass options s.unit.members (s.built.filterMap (·.type?))]
  else s.built ++ (t.wrappers t.root s.unit.members s.listed true).map .typeDecl

variable {t}

theorem rootChildren_ordinary (hscript : t.isScript = false) (options : DeclarationOptions)
    (s : Sources) : t.rootChildren options s =
      s.built ++ (t.wrappers t.root s.unit.members s.listed true).map .typeDecl := by
  rw [rootChildren, hscript, if_neg Bool.false_ne_true]

theorem rootChildren_scripted (hscript : t.isScript = true) (options : DeclarationOptions)
    (s : Sources) : t.rootChildren options s = s.built.filter (·.type?.isNone) ++
      Declaration.nest (t.scriptHeaders options)
        [.typeDecl (t.scriptType options s.unit.members (s.built.filterMap (·.type?)))] := by
  rw [rootChildren, hscript, if_pos rfl, nest_scriptHeaders]

theorem declare_eq (options : DeclarationOptions) : t.declare options =
    (t.sources >>= fun s => .ok (t.rootDeclaration s.unit (t.rootChildren options s))) := by
  simp only [declare, sources, scriptChildren, regularChildren, Outcome.bind_assoc, rootChildren,
    Outcome.pure_eq_ok, Outcome.ok_bind]
  cases t.isScript <;> simp

theorem declare_eq_ok {options : DeclarationOptions} {r : RootDeclaration}
    (hr : t.declare options = .ok r) : ∃ s, t.sources = .ok s ∧
      r = t.rootDeclaration s.unit (t.rootChildren options s) := by
  rw [declare_eq] at hr
  obtain ⟨s, hs, hr⟩ := Outcome.bind_eq_ok hr
  cases hr
  exact ⟨s, hs, rfl⟩

theorem rootDeclaration_children (unit : Syntax.CompilationUnit) (row : List Declaration) :
    (t.rootDeclaration unit row).children = row := rfl

theorem kindOf?_of_checkRoot {u : Unit} (h : t.checkRoot = .ok u) :
    t.arena.kindOf? t.root = some .compilationUnit := by
  unfold checkRoot at h
  split at h
  · assumption
  · cases h

theorem payload_eq_ok {s : Shape} {k : SyntaxKind} {i : NodeIndex} {d : s.Data}
    (h : t.payload s k i = .ok d) : t.arena.payload? s i = some d := by
  unfold payload at h
  split at h <;> cases h
  assumption

/-- Where the declarations of a unit are built, every stage before has succeeded. -/
theorem sources_stages {s : Sources} (hs : t.sources = .ok s) :
    ∃ hints, t.fileHints = .ok hints ∧ t.arena.kindOf? t.root = some .compilationUnit ∧
      t.arena.payload? .compilationUnit t.root = some s.unit ∧
      t.listMembers .compilationUnit (t.memberList t.root) = .ok s.listed ∧
      (⟨t, hints⟩ : Builder).declarationsOf (t.declaredMembers t.root) = .ok s.built := by
  unfold sources at hs
  obtain ⟨u, hroot, hs⟩ := Outcome.bind_eq_ok hs
  obtain ⟨hints, hhints, hs⟩ := Outcome.bind_eq_ok hs
  obtain ⟨unit, hunit, hs⟩ := Outcome.bind_eq_ok hs
  obtain ⟨listed, hlisted, hs⟩ := Outcome.bind_eq_ok hs
  obtain ⟨built, hbuilt, hs⟩ := Outcome.bind_eq_ok hs
  cases hs
  have hk := kindOf?_of_checkRoot hroot
  have hd := payload_eq_ok hunit
  rw [← memberList_of_unit hd] at hlisted
  rw [select_eq_declaredMembers hk rfl hlisted] at hbuilt
  exact ⟨hints, hhints, hk, hd, hlisted, hbuilt⟩

/-- What is built is what the recursion makes of the members that the root declares. -/
theorem sources_eq_ok (h : t.arena.Descends) {s : Sources} (hs : t.sources = .ok s) :
    ∃ hints, t.arena.kindOf? t.root = some .compilationUnit ∧
      t.arena.payload? .compilationUnit t.root = some s.unit ∧
      t.listMembers .compilationUnit (t.memberList t.root) = .ok s.listed ∧
      (⟨t, hints⟩ : Builder).declarationsFrom (t.arena.size + 1) (t.declaredMembers t.root) =
        .ok s.built := by
  obtain ⟨hints, -, hk, hd, hlisted, hbuilt⟩ := sources_stages hs
  rw [Builder.declarationsOf_eq_declarationsFrom h (Nat.lt_succ_self _)] at hbuilt
  exact ⟨hints, hk, hd, hlisted, hbuilt⟩

end SyntaxTree

end DeclTree
