import DeclTree.Proofs.OutlineBuild
/-!
Trees that differ within bodies and values only: in statements and expressions, and in the links that
lead to them. What is declared is the same, but for what the statements of a top-level program tell.
-/
namespace DeclTree

/-- The pools without bodies and values, and without the nodes that stand in them. -/
def Pools.withoutBodies (p : Pools) : Pools :=
  { p with
    enumMembers := p.enumMembers.map (Shape.withoutBody .enumMember)
    declarators := p.declarators.map (Shape.withoutBody .declarator)
    methods := p.methods.map (Shape.withoutBody .method)
    properties := p.properties.map (Shape.withoutBody .property)
    accessors := p.accessors.map (Shape.withoutBody .accessor)
    parameters := p.parameters.map (Shape.withoutBody .parameter)
    composites := #[] }

theorem Pools.of_withoutBodies (p : Pools) {s : Shape} (hs : s ≠ .composite) :
    p.withoutBodies.of s = (p.of s).map s.withoutBody := by
  cases s with
  | composite => exact absurd rfl hs
  | enumMember | declarator | method | property | accessor | parameter => rfl
  | _ => exact (Array.map_id' _).symm

/-- What only the statements of a top-level program tell of it. -/
def TypeFact.ofStatements : TypeFacts :=
  .ofList [.hasAwaitExpressions, .isIterator, .hasReturnWithExpression]

/-- What a type says of itself, but for what the statements of a top-level program tell. -/
def TypeHeader.withoutStatements (header : TypeHeader) : TypeHeader :=
  if header.kind = .simpleProgram then
    { header with facts := header.facts \ TypeFact.ofStatements }
  else header

/-- The declarations of a file without what the statements of its top-level program tell. -/
def RootDeclaration.withoutStatements (r : RootDeclaration) : RootDeclaration :=
  { r with children := r.children.map (·.mapHeaders (·.withoutStatements) fun header => header) }

namespace Arena

def withoutBodies (a : Arena) : Arena := { a with pools := a.pools.withoutBodies }

theorem payload?_withoutBodies (a : Arena) {s : Shape} (hs : s ≠ .composite) (i : NodeIndex) :
    a.withoutBodies.payload? s i = (a.payload? s i).map s.withoutBody := by
  have hget : a.withoutBodies.get? i = a.get? i := rfl
  unfold payload?
  rw [hget]
  cases a.get? i with
  | none => rfl
  | some hd =>
    simp only [withoutBodies, Pools.of_withoutBodies _ hs, Array.getElem?_map]
    split <;> rfl

end Arena

namespace SyntaxTree

/-- A tree without what lies within bodies and values. -/
def withoutBodies (t : SyntaxTree) : SyntaxTree := { t with arena := t.arena.withoutBodies }

variable {t t' : SyntaxTree}

theorem sameOutline_of_withoutBodies (h : t.withoutBodies = t'.withoutBodies) :
    t.SameOutline (fun i => i) t' where
  treeId := (congrArg SyntaxTree.id h).symm
  options := (congrArg SyntaxTree.options h).symm
  root := (congrArg SyntaxTree.root h).symm
  arena := {
    isMissing _ := rfl
    traits i := by
      have hget : t.arena.get? i = t'.arena.get? i := congrArg (·.arena.get? i) h
      rw [hget]
    payload s hs i := by
      have hpayload := congrArg (·.arena.payload? s i) h
      simp only [withoutBodies, Arena.payload?_withoutBodies _ hs] at hpayload
      simp only [Shape.rename_id, hpayload] }

/-- Bodies leave the sizes of arenas and the parent links alone. -/
theorem headersAlike_of_withoutBodies (h : t.withoutBodies = t'.withoutBodies) :
    SameOutline.HeadersAlike t (fun i => i) t' (·.rename fun i => i) := by
  intro i k d _ _ _ _
  have houtline := sameOutline_of_withoutBodies h
  have hsize : t'.arena.size = t.arena.size := (congrArg (·.arena.size) h).symm
  have hparent : t'.arena.parentOf i = t.arena.parentOf i := (congrArg (·.arena.parentOf i) h).symm
  have hkind := houtline.arena.kindOf?_eq (t.arena.parentOf i)
  have hunit := houtline.arena.payload?_eq (s := .compilationUnit) (by decide) (fun _ => rfl)
    (t.arena.parentOf i)
  refine houtline.namespaceHeaders_eq ?_ ?_
  · rw [funext (Shape.rename_id .compilationUnit), Option.map_id'] at hunit
    simp only [placementCode?, hparent, hkind, hunit]
  · rw [Arena.segments, hsize, houtline.arena.segmentsFrom_eq, Arena.segments]

theorem sources_of_withoutBodies (h : t.withoutBodies = t'.withoutBodies) :
    t'.sources = t.sources := by
  have hfollows := (sameOutline_of_withoutBodies h).sources_follows.eq
    fun _ _ => headersAlike_of_withoutBodies h
  rw [hfollows]
  cases t.sources with
  | error e => exact congrArg Except.error e.rename_id
  | ok s => exact congrArg Except.ok s.rename_id

theorem rootDeclaration_of_withoutBodies (h : t.withoutBodies = t'.withoutBodies)
    (unit : Syntax.CompilationUnit) (row : List Declaration) :
    t'.rootDeclaration unit row = t.rootDeclaration unit row := by
  have hroot := (sameOutline_of_withoutBodies h).rootDeclaration_eq unit row
  rwa [Shape.rename_id] at hroot

theorem scriptClass_of_withoutBodies (h : t.withoutBodies = t'.withoutBodies)
    (options : DeclarationOptions) (members : NodeList) (inner : List TypeDeclaration) :
    t'.scriptClass options members inner = t.scriptClass options members inner := by
  have hclass := (sameOutline_of_withoutBodies h).scriptClass_eq options
    (g := (·.rename fun i => i)) (fun _ _ => rfl) members inner
  have hinner : inner.map (·.mapHeaders (·.rename fun i => i)) = inner :=
    List.map_id'' TypeDeclaration.mapHeaders_id inner
  rw [List.map_id', hinner] at hclass
  exact hclass.trans (Declaration.mapHeaders_id _)

theorem programFacts_sdiff (statements : NodeList) :
    t.programFacts statements \ TypeFact.ofStatements = .single .isSimpleProgram := by
  unfold programFacts
  generalize statements.any t.arena.hasAwait = awaits
  generalize statements.any t.arena.hasYield = yields
  generalize statements.any t.arena.hasValueReturn = returns
  revert awaits yields returns
  decide +kernel

theorem simpleProgram_of_withoutBodies (h : t.withoutBodies = t'.withoutBodies)
    (unit first : NodeIndex) (globals : NodeList) :
    (t'.simpleProgram unit first globals).mapHeaders (·.withoutStatements) =
      (t.simpleProgram unit first globals).mapHeaders (·.withoutStatements) := by
  have hprogram := (sameOutline_of_withoutBodies h).simpleProgram_eq unit first globals
  rw [List.map_id', List.map_id'] at hprogram
  rw [hprogram, simpleProgram_eq_any]
  simp only [TypeDeclaration.mapHeaders_mk, TypeDeclaration.header, TypeHeader.withoutStatements,
    TypeHeader.rename, if_pos, programFacts_sdiff]
  rfl

section Wrappers
variable {f : TypeDeclaration → TypeDeclaration} {listed : List ListedMember}

theorem map_wrappers_of_withoutBodies (h : t.withoutBodies = t'.withoutBodies) (i : NodeIndex)
    (members : NodeList)
    (hprogram : ∀ first globals, ListedMember.select listed .statement = first :: globals →
      f (t'.simpleProgram i first (first :: globals)) =
        f (t.simpleProgram i first (first :: globals))) :
    (t'.wrappers i members listed true).map f = (t.wrappers i members listed true).map f := by
  have hlisted : listed.map (·.rename fun i => i) = listed := List.map_id' listed
  have hwrappers := (sameOutline_of_withoutBodies h).map_wrappers_eq (f := f) (g := f) i members
    listed true (fun first globals _ hselect => by rw [List.map_id', hprogram first globals hselect])
    (congrArg f (TypeDeclaration.mapHeaders_id _))
  rwa [List.map_id', hlisted] at hwrappers

end Wrappers

section Root
variable {s : Sources} (options : DeclarationOptions)

theorem rootChildren_of_script (h : t.withoutBodies = t'.withoutBodies)
    (hscript : t.isScript = true) : t'.rootChildren options s = t.rootChildren options s := by
  have hscript' : t'.isScript = true := (sameOutline_of_withoutBodies h).isScript_eq.trans hscript
  simp only [rootChildren, hscript, hscript', if_true, scriptClass_of_withoutBodies h]

/-- The types made up for a unit are the same where `f` sees no difference between its programs. -/
theorem map_rootChildren (h : t.withoutBodies = t'.withoutBodies) (f : TypeHeader → TypeHeader)
    (hprogram : ∀ first globals, ListedMember.select s.listed .statement = first :: globals →
      (t'.simpleProgram t.root first (first :: globals)).mapHeaders f =
        (t.simpleProgram t.root first (first :: globals)).mapHeaders f) :
    (t'.rootChildren options s).map (·.mapHeaders f fun header => header) =
      (t.rootChildren options s).map (·.mapHeaders f fun header => header) := by
  cases hscript : t.isScript with
  | true => rw [rootChildren_of_script options h hscript]
  | false =>
    have houtline := sameOutline_of_withoutBodies h
    have hscript' : t'.isScript = false := houtline.isScript_eq.trans hscript
    have hwrappers := map_wrappers_of_withoutBodies h t.root s.unit.members hprogram
    rw [rootChildren_ordinary hscript, rootChildren_ordinary hscript', houtline.root,
      List.map_append, List.map_append, Declaration.map_map_typeDecl,
      Declaration.map_map_typeDecl, hwrappers]

theorem select_statement_eq_nil (hs : t.sources = .ok s)
    (hplain : ∀ j ∈ t.memberList t.root, t.arena.kindOf? j ≠ some .globalStatement) :
    ListedMember.select s.listed .statement = [] := by
  obtain ⟨hints, -, -, -, hlisted, -⟩ := sources_stages hs
  rw [select_eq_filter hlisted, List.filter_eq_nil_iff]
  intro j hj hstatement
  exact hplain j hj (memberClassOf?_eq_statement.1 (by simpa using hstatement))

end Root

/-- What stands within bodies and values decides on nothing but what the statements of a top-level
program tell of it. -/
theorem declare_of_withoutBodies (h : t.withoutBodies = t'.withoutBodies)
    (options : DeclarationOptions) :
    (∃ e, t.declare options = .error e ∧ t'.declare options = .error e) ∨
    ∃ r r', t.declare options = .ok r ∧ t'.declare options = .ok r' ∧
      r'.withoutStatements = r.withoutStatements ∧
      (t.isScript = true ∨
        (∀ j ∈ t.memberList t.root, t.arena.kindOf? j ≠ some .globalStatement) → r' = r) := by
  rw [declare_eq, declare_eq, sources_of_withoutBodies h]
  cases hs : t.sources with
  | error e => exact .inl ⟨e, rfl, rfl⟩
  | ok s =>
    refine .inr ⟨_, _, rfl, rfl, ?_, fun hplain => ?_⟩
    · have hchildren := map_rootChildren options h (·.withoutStatements) (s := s)
        fun first globals _ => simpleProgram_of_withoutBodies h t.root first (first :: globals)
      rw [RootDeclaration.withoutStatements, RootDeclaration.withoutStatements,
        rootDeclaration_of_withoutBodies h, rootDeclaration_children, rootDeclaration_children,
        hchildren]
      rfl
    · have hchildren : t'.rootChildren options s = t.rootChildren options s := by
        obtain hscript | hplain := hplain
        · exact rootChildren_of_script options h hscript
        · have hnone := select_statement_eq_nil hs hplain
          have hsame := map_rootChildren options h (fun header => header) (s := s)
            fun first globals hselect => by
              rw [hnone] at hselect
              cases hselect
          rwa [List.map_id'' Declaration.mapHeaders_id, List.map_id'' Declaration.mapHeaders_id]
            at hsame
      rw [rootDeclaration_of_withoutBodies h, hchildren]

/-- The file `return 1;`. -/
def sampleReturn : SyntaxTree :=
  let a : Arena := {}
  let a := (a.add .composite .literalExpression ⟨7, 8⟩ ({} : Syntax.Composite)).2
  let a := (a.add .composite .returnStatement ⟨0, 9⟩
    ({ children := [.ofNat 0] } : Syntax.Composite)).2
  let a := (a.add .globalStatement .globalStatement ⟨0, 9⟩
    ({ statement := .ofNat 1 } : Syntax.GlobalStatement)).2
  let a := (a.add .compilationUnit .compilationUnit ⟨0, 9⟩
    ({ members := [.ofNat 2] } : Syntax.CompilationUnit)).2
  ⟨⟨0⟩, "return.cs", {}, a, .ofNat 3⟩

/-- The same file where the statement returns nothing. -/
def sampleReturnNothing : SyntaxTree :=
  let a := sampleReturn.arena
  { sampleReturn with arena := { a with pools := { a.pools with composites := #[{}, {}] } } }

theorem sample_declare_of_withoutBodies :
    ∃ r r', sampleReturn.declare {} = .ok r ∧ sampleReturnNothing.declare {} = .ok r' ∧
      r'.withoutStatements = r.withoutStatements := by
  have hbodies : sampleReturn.withoutBodies = sampleReturnNothing.withoutBodies := by
    decide +kernel
  obtain ⟨e, herror, -⟩ | ⟨r, r', hr, hr', hsame, -⟩ := declare_of_withoutBodies hbodies {}
  · obtain ⟨r, hr⟩ : ∃ r, sampleReturn.declare {} = .ok r :=
      Outcome.exists_eq_ok (by decide +kernel)
    rw [hr] at herror
    cases herror
  · exact ⟨r, r', hr, hr', hsame⟩

end SyntaxTree

end DeclTree
