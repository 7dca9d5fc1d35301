import DeclTree.Proofs.UnitOrder
import DeclTree.Proofs.StatementScans
/-!
The program that a file with top-level statements is given. It tells what any one of the statements
shows, and the order of the members decides nothing but where it is named.
-/
namespace DeclTree

def Declaration.isProgram : Declaration → Bool
  | namespaceDecl _ _ => false
  | typeDecl ty => ty.header.kind == .simpleProgram

/-- The same type, named at another place together with what is reported of it. -/
def TypeDeclaration.nameAt (place : Location) : TypeDeclaration → TypeDeclaration
  | mk header inner =>
    mk { header with
         nameLocation := place
         diagnostics := header.diagnostics.map fun r => { r with location := place } } inner

namespace SyntaxTree
variable (t : SyntaxTree)

/-- The global statements among some members. -/
def globalsAmong (members : NodeList) : NodeList :=
  members.filter fun i => t.arena.kindOf? i == some .globalStatement

/-- Some of the global statements has its payload, and a scan finds something in its statement. -/
def Finds (scan : NodeIndex → Bool) (members : NodeList) : Prop :=
  ∃ i ∈ t.globalsAmong members, ∃ d : Syntax.GlobalStatement,
    t.arena.payload? .globalStatement i = some d ∧ scan d.statement = true

/-- Every global statement that has its payload is an empty statement. -/
def OnlyEmpty (members : NodeList) : Prop :=
  ∀ i ∈ t.globalsAmong members, ∀ d : Syntax.GlobalStatement,
    t.arena.payload? .globalStatement i = some d →
      t.arena.kindOf? d.statement = some .emptyStatement

/-- What a program says of the top-level statements among some members. -/
structure TellsStatements (members : NodeList) (program : TypeHeader) : Prop where
  facts : ∀ f, f ∈ program.facts ↔ f = .isSimpleProgram ∨
    (f = .hasAwaitExpressions ∧ t.Finds t.arena.hasAwait members) ∨
    (f = .isIterator ∧ t.Finds t.arena.hasYield members) ∨
    (f = .hasReturnWithExpression ∧ t.Finds t.arena.hasValueReturn members)
  place : (t.globalsAmong members).head?.map t.location = some program.nameLocation
  empty : t.OnlyEmpty members →
    program.diagnostics = [⟨Code.emptyProgram, program.nameLocation, []⟩]
  notEmpty : ¬ t.OnlyEmpty members → program.diagnostics = []

variable {t} {members : NodeList} {first first' : NodeIndex} {globals others : NodeList}

theorem mem_statementsOf {statement : NodeIndex} : statement ∈ t.statementsOf globals ↔
    ∃ i ∈ globals, ∃ d : Syntax.GlobalStatement,
      t.arena.payload? .globalStatement i = some d ∧ d.statement = statement := by
  simp [statementsOf, List.mem_filterMap]

theorem any_statementsOf (scan : NodeIndex → Bool) :
    (t.statementsOf (t.globalsAmong members)).any scan = true ↔ t.Finds scan members := by
  rw [List.any_eq_true]
  constructor
  · rintro ⟨statement, hstatement, hfound⟩
    obtain ⟨i, hi, d, hd, rfl⟩ := mem_statementsOf.1 hstatement
    exact ⟨i, hi, d, hd, hfound⟩
  · rintro ⟨i, hi, d, hd, hfound⟩
    exact ⟨d.statement, mem_statementsOf.2 ⟨i, hi, d, hd, rfl⟩, hfound⟩

theorem all_statementsOf :
    (t.statementsOf (t.globalsAmong members)).all t.arena.isEmptyStatement = true ↔
      t.OnlyEmpty members := by
  rw [List.all_eq_true]
  constructor
  · intro hall i hi d hd
    simpa [Arena.isEmptyStatement] using hall _ (mem_statementsOf.2 ⟨i, hi, d, hd, rfl⟩)
  · intro honly statement hstatement
    obtain ⟨i, hi, d, hd, rfl⟩ := mem_statementsOf.1 hstatement
    simpa [Arena.isEmptyStatement] using honly i hi d hd

theorem tellsStatements_simpleProgram (hglobals : t.globalsAmong members = first :: others)
    (unit : NodeIndex) :
    t.TellsStatements members (t.simpleProgram unit first (t.globalsAmong members)).header where
  facts f := by
    simp only [simpleProgram_eq_any, TypeDeclaration.header, programFacts, FlagSet.mem_union,
      FlagSet.mem_single, FlagSet.mem_when, any_statementsOf, or_assoc, and_comm]
  place := by
    rw [hglobals, simpleProgram_eq_any]
    rfl
  empty honly := by
    rw [simpleProgram_eq_any]
    exact if_pos (all_statementsOf.2 honly)
  notEmpty hnot := by
    rw [simpleProgram_eq_any]
    exact if_neg (mt all_statementsOf.1 hnot)

/-- In another order of the statements only the first one may be another one. -/
theorem simpleProgram_of_perm (h : globals.Perm others) (unit first first' : NodeIndex) :
    t.simpleProgram unit first' others =
      (t.simpleProgram unit first globals).nameAt (t.location first') := by
  have hstatements : (t.statementsOf others).Perm (t.statementsOf globals) := (h.filterMap _).symm
  simp only [simpleProgram_eq_any, TypeDeclaration.nameAt, programFacts, hstatements.any_eq,
    hstatements.all_eq]
  split <;> rfl

section Children
variable {s : Sources}

theorem select_statement_eq_globalsAmong (hs : t.sources = .ok s) :
    ListedMember.select s.listed .statement = t.globalsAmong s.unit.members := by
  obtain ⟨hints, -, -, hunit, hlisted, -⟩ := sources_stages hs
  rw [memberList_of_unit hunit] at hlisted
  rw [select_eq_filter hlisted, globalsAmong]
  refine List.filter_congr fun i _ => ?_
  rw [Bool.eq_iff_iff, beq_iff_eq, beq_iff_eq, memberClassOf?_eq_statement]

/-- Of what is directly below the root of an ordinary file only one is a program. -/
theorem filter_isProgram_rootChildren (hs : t.sources = .ok s) (hregular : t.isScript = false)
    (hglobals : t.globalsAmong s.unit.members = first :: others) (options : DeclarationOptions) :
    (t.rootChildren options s).filter (·.isProgram) =
      [.typeDecl (t.simpleProgram t.root first (t.globalsAmong s.unit.members))] := by
  obtain ⟨hints, -, -, -, -, hbuilt⟩ := sources_stages hs
  rw [Builder.declarationsOf_eq_size] at hbuilt
  have hsource : s.built.filter (·.isProgram) = [] := by
    refine List.filter_eq_nil_iff.2 fun d hd => ?_
    have hwrapper := Builder.isWrapper_eq_false hbuilt d hd
    cases d with
    | namespaceDecl header inner => exact Bool.false_ne_true
    | typeDecl ty =>
      intro hprogram
      have hkind : ty.header.kind = .simpleProgram := by simpa [Declaration.isProgram] using hprogram
      simp [Declaration.isWrapper, hkind, TypeKind.isWrapper] at hwrapper
  have hselect : ListedMember.select s.listed .statement = first :: others :=
    (select_statement_eq_globalsAmong hs).trans hglobals
  rw [rootChildren_ordinary hregular, List.filter_append, hsource, List.nil_append, hglobals]
  simp only [wrappers, hselect, List.map_append, List.filter_append]
  split <;> rfl

end Children

/-- An ordinary file with top-level statements has one program. Its flags are those that any of the
statements shows, it is named at the first one, and it is reported just if none does anything. In
another order of the members it is the same program, but for the place at which it is named. -/
theorem declare_topLevelProgram {options : DeclarationOptions} {r : RootDeclaration}
    {unit : Syntax.CompilationUnit} (hr : t.declare options = .ok r)
    (hregular : t.isScript = false)
    (hunit : t.arena.payload? .compilationUnit t.root = some unit)
    (hlists : t.globalsAmong unit.members ≠ []) :
    ∃ program, r.children.filter (·.isProgram) = [.typeDecl program] ∧
      t.TellsStatements unit.members program.header ∧ program.children = [] ∧
      ∀ members, members.Perm unit.members → ∃ r' first,
        (t.withUnit { unit with members }).declare options = .ok r' ∧
        (t.globalsAmong members).head? = some first ∧
        r'.children.filter (·.isProgram) = [.typeDecl (program.nameAt (t.location first))] := by
  obtain ⟨s, hs, rfl⟩ := declare_eq_ok hr
  obtain ⟨-, -, -, hunit', -⟩ := sources_stages hs
  cases hunit.symm.trans hunit'
  obtain ⟨first, others, hglobals⟩ := List.exists_cons_of_ne_nil hlists
  refine ⟨_, filter_isProgram_rootChildren hs hregular hglobals options,
    tellsStatements_simpleProgram hglobals t.root, rfl, fun members hperm => ?_⟩
  have hreorders : Syntax.CompilationUnit.Reorders { s.unit with members } s.unit :=
    ⟨rfl, .refl _, rfl, hperm, rfl⟩
  obtain ⟨s', hs', hunit', -⟩ := sources_withUnit hs hreorders
  have hmembers : s'.unit.members = members := by rw [hunit']
  have hglobalsPerm : (t.globalsAmong s.unit.members).Perm (t.globalsAmong members) :=
    (hperm.filter _).symm
  obtain ⟨first', others', hglobals'⟩ : ∃ first' others',
      t.globalsAmong members = first' :: others' :=
    List.exists_cons_of_ne_nil fun hnil => hlists (hnil ▸ hglobalsPerm).eq_nil
  refine ⟨_, first', by rw [declare_eq, hs', Outcome.ok_bind], by rw [hglobals']; rfl, ?_⟩
  have hlisted : (t.withUnit { s.unit with members }).globalsAmong s'.unit.members =
      first' :: others' := by
    rw [hmembers]
    exact hglobals'
  rw [rootDeclaration_children, filter_isProgram_rootChildren hs' hregular hlisted,
    simpleProgram_withUnit hunit hreorders, hmembers]
  exact congrArg (fun program => [Declaration.typeDecl program])
    (simpleProgram_of_perm hglobalsPerm t.root first first')

/-- The file `; class C; await x;` with its two statements around a class. -/
def sampleTopLevel : SyntaxTree :=
  let a : Arena := {}
  let a := (a.add .composite .emptyStatement ⟨0, 1⟩ ({} : Syntax.Composite)).2
  let a := (a.add .globalStatement .globalStatement ⟨0, 1⟩
    ({ statement := .ofNat 0 } : Syntax.GlobalStatement)).2
  let a := (a.add .typeDecl .classDeclaration ⟨2, 10⟩ ({} : Syntax.TypeDecl)).2
  let a := (a.add .composite .awaitExpression ⟨11, 18⟩ ({} : Syntax.Composite)).2
  let a := (a.add .composite .expressionStatement ⟨11, 19⟩
    ({ children := [.ofNat 3] } : Syntax.Composite)).2
  let a := (a.add .globalStatement .globalStatement ⟨11, 19⟩
    ({ statement := .ofNat 4 } : Syntax.GlobalStatement)).2
  let a := (a.add .compilationUnit .compilationUnit ⟨0, 19⟩
    ({ members := [.ofNat 1, .ofNat 2, .ofNat 5] } : Syntax.CompilationUnit)).2
  ⟨⟨0⟩, "top.cs", {}, a, .ofNat 6⟩

theorem sampleTopLevel_declare_topLevelProgram : ∃ r r' program,
    sampleTopLevel.declare {} = .ok r ∧
      r.children.filter (·.isProgram) = [.typeDecl program] ∧
      .hasAwaitExpressions ∈ program.header.facts ∧ program.header.diagnostics = [] ∧
      program.header.nameLocation = ⟨⟨0⟩, ⟨0, 1⟩⟩ ∧
      (sampleTopLevel.withUnit { members := [.ofNat 5, .ofNat 1, .ofNat 2] }).declare {} = .ok r' ∧
      r'.children.filter (·.isProgram) =
        [.typeDecl (program.nameAt ⟨⟨0⟩, ⟨11, 19⟩⟩)] := by
  obtain ⟨r, hr⟩ : ∃ r, sampleTopLevel.declare {} = .ok r :=
    Outcome.exists_eq_ok (by decide +kernel)
  have hunit : sampleTopLevel.arena.payload? .compilationUnit sampleTopLevel.root =
      some ({ members := [.ofNat 1, .ofNat 2, .ofNat 5] } : Syntax.CompilationUnit) := by
    decide +kernel
  have hglobals : sampleTopLevel.globalsAmong [.ofNat 1, .ofNat 2, .ofNat 5] =
      [.ofNat 1, .ofNat 5] := by decide +kernel
  obtain ⟨program, hprogram, htells, -, hreorder⟩ :=
    declare_topLevelProgram hr rfl hunit (by simp [hglobals])
  obtain ⟨r', first, hr', hfirst, hprogram'⟩ :=
    hreorder [.ofNat 5, .ofNat 1, .ofNat 2] (by decide +kernel)
  have hawait : sampleTopLevel.Finds sampleTopLevel.arena.hasAwait
      [.ofNat 1, .ofNat 2, .ofNat 5] := by
    refine ⟨.ofNat 5, by simp [hglobals], { statement := .ofNat 4 }, ?_, ?_⟩ <;> decide +kernel
  have hnotEmpty : ¬ sampleTopLevel.OnlyEmpty [.ofNat 1, .ofNat 2, .ofNat 5] := by
    intro honly
    have hkind := honly (.ofNat 5) (by simp [hglobals]) { statement := .ofNat 4 } (by decide +kernel)
    exact absurd hkind (by decide +kernel)
  have hplace := htells.place
  rw [hglobals] at hplace
  have hfirst' : first = .ofNat 5 := by
    have hlisted : (sampleTopLevel.globalsAmong [.ofNat 5, .ofNat 1, .ofNat 2]).head? =
        some (.ofNat 5) := by decide +kernel
    exact Option.some.inj (hfirst.symm.trans hlisted)
  rw [hfirst'] at hprogram'
  exact ⟨r, r', program, hr, hprogram, (htells.facts _).2 (.inr (.inl ⟨rfl, hawait⟩)),
    htells.notEmpty hnotEmpty, (Option.some.inj hplace).symm, hr', hprogram'⟩

end SyntaxTree

end DeclTree
