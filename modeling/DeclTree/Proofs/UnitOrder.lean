import DeclTree.Proofs.Agreement
import DeclTree.Proofs.Budget
import DeclTree.Proofs.Settlement
import DeclTree.Proofs.SourceModes
/-!
A file whose compilation unit lists its `using` directives and its members in another order. The nodes
are the same, and so is what each of them says below the unit. The file is still built, and where the
members keep their order the same is built of them.
-/
namespace DeclTree

/-- The same unit but for the order of its `using` directives and of its members. -/
structure Syntax.CompilationUnit.Reorders (d unit : Syntax.CompilationUnit) : Prop where
  externs : d.externs = unit.externs
  usings : d.usings.Perm unit.usings
  attributeLists : d.attributeLists = unit.attributeLists
  members : d.members.Perm unit.members
  referenceDirectives : d.referenceDirectives = unit.referenceDirectives

theorem Syntax.CompilationUnit.Reorders.links {d unit : Syntax.CompilationUnit}
    (h : d.Reorders unit) :
    (Shape.links .compilationUnit d).Perm (Shape.links .compilationUnit unit) := by
  simp only [Shape.links, h.externs, h.attributeLists, h.referenceDirectives]
  exact (((h.usings.append_left _).append_right _).append h.members).append_right _

namespace Arena
variable {a : Arena} {i j : NodeIndex} {unit d : Syntax.CompilationUnit}

/-- An arena with another payload for a compilation unit. Nodes that share the payload change with
it. -/
def withUnit (a : Arena) (i : NodeIndex) (d : Syntax.CompilationUnit) : Arena :=
  let slot := ((a.get? i).map (·.slot)).getD Header.noSlot
  let units := a.pools.compilationUnits.setIfInBounds slot.toNat d
  { a with pools := { a.pools with compilationUnits := units } }

section Payloads

theorem payload?_withUnit_of_ne {s : Shape} (hs : s ≠ .compilationUnit) (j : NodeIndex) :
    (a.withUnit i d).payload? s j = a.payload? s j := by
  cases s <;> first | rfl | exact absurd rfl hs

/-- What is at the slot of a payload. -/
theorem exists_slot {s : Shape} {e : s.Data} (he : a.payload? s i = some e) :
    ∃ h, a.get? i = some h ∧ h.kind.shape? = some s ∧ h.hasSlot = true ∧
      (a.pools.of s)[h.slot.toNat]? = some e := by
  unfold payload? at he
  split at he
  · rename_i h hget
    split at he
    · rename_i hs
      exact ⟨h, hget, hs.1, hs.2, he⟩
    · cases he
  · cases he

theorem payload?_withUnit (hunit : a.payload? .compilationUnit i = some unit) (j : NodeIndex) :
    (a.withUnit i d).payload? .compilationUnit j = a.payload? .compilationUnit j ∨
      a.payload? .compilationUnit j = some unit ∧
        (a.withUnit i d).payload? .compilationUnit j = some d := by
  obtain ⟨h, hget, -, -, hslot⟩ := exists_slot hunit
  obtain ⟨hsize, -⟩ := Array.getElem?_eq_some_iff.1 hslot
  have hgetj : (a.withUnit i d).get? j = a.get? j := rfl
  cases hj : a.get? j with
  | none => exact .inl (by rw [payload?, payload?, hgetj, hj])
  | some hd =>
    simp only [payload?, hgetj, hj]
    split
    · by_cases hsame : h.slot.toNat = hd.slot.toNat
      · refine .inr ⟨by rw [← hsame, hslot], ?_⟩
        simp only [withUnit, hget, Pools.of, Option.map_some, Option.getD_some, ← hsame]
        exact Array.getElem?_setIfInBounds_self_of_lt hsize
      · refine .inl ?_
        simp only [withUnit, hget, Pools.of, Option.map_some, Option.getD_some]
        exact Array.getElem?_setIfInBounds_ne hsame
    · exact .inl rfl

theorem payload?_withUnit_self (hunit : a.payload? .compilationUnit i = some unit) :
    (a.withUnit i d).payload? .compilationUnit i = some d := by
  obtain ⟨h, hget, hshape, hhas, hslot⟩ := exists_slot hunit
  obtain ⟨hsize, -⟩ := Array.getElem?_eq_some_iff.1 hslot
  have hget' : (a.withUnit i d).get? i = a.get? i := rfl
  rw [payload?, hget', hget]
  simp only [hshape, hhas, and_self, ↓reduceIte, withUnit, hget, Pools.of, Option.map_some,
    Option.getD_some]
  exact Array.getElem?_setIfInBounds_self_of_lt hsize

end Payloads

theorem agrees_withUnit (a : Arena) (i : NodeIndex) (d : Syntax.CompilationUnit) :
    a.Agrees (a.withUnit i d) where
  headers := rfl
  payload s hs j := payload?_withUnit_of_ne (by rintro rfl; cases hs) j

theorem aliasHints_of_perm {usings others : NodeList} (h : usings.Perm others) (isGlobal : Bool) :
    a.aliasHints usings isGlobal = a.aliasHints others isGlobal :=
  FlagSet.unions_eq_of_mem_iff _ fun _ => ((h.filterMap _).filter _).mem_iff

section Walks
variable (hunit : a.payload? .compilationUnit i = some unit) (h : d.Reorders unit)
include hunit h

theorem links_withUnit (j : NodeIndex) : ((a.withUnit i d).links j).Perm (a.links j) := by
  have hkind : (a.withUnit i d).kindOf? j = a.kindOf? j := rfl
  unfold links
  rw [hkind]
  split
  · rename_i s _
    by_cases hs : s = .compilationUnit
    · subst hs
      obtain hsame | ⟨hold, hnew⟩ := payload?_withUnit (d := d) hunit j
      · rw [hsame]
      · rw [hold, hnew]
        exact h.links
    · rw [payload?_withUnit_of_ne hs]
  · exact .refl _

theorem linkCount_withUnit : (a.withUnit i d).linkCount = a.linkCount := by
  have hlength (n : Nat) : ((a.withUnit i d).links (.ofNat n)).length = (a.links (.ofNat n)).length :=
    (links_withUnit hunit h _).length_eq
  rw [linkCount, List.length_flatMap, linkCount, List.length_flatMap]
  simp only [hlength]
  rfl

theorem walkBudget_withUnit (start : NodeList) :
    (a.withUnit i d).walkBudget start = a.walkBudget start := by
  rw [walkBudget, linkCount_withUnit hunit h]
  rfl

/-- No walk within a statement comes to a compilation unit. -/
theorem containsNode_withUnit (statement : NodeIndex) (p : NodeIndex → Bool) :
    (a.withUnit i d).containsNode statement p = a.containsNode statement p := by
  rw [containsNode, walkBudget_withUnit hunit h]
  rfl

/-- The hints of the aliases are a union, to which neither order matters. -/
theorem fileAliasHints?_withUnit {hints : AttributeHints}
    (hhints : a.fileAliasHints? i = some hints) : (a.withUnit i d).fileAliasHints? i = some hints := by
  rw [fileAliasHints?_of_payload hunit] at hhints
  obtain ⟨visits, hwalk, rfl⟩ := Option.map_eq_some_iff.1 hhints
  obtain ⟨visits', hvisits', hperm⟩ := (Walk.preorder_of_visited? hwalk).reorder h.members.symm
  have hwalk' := Walk.visited?_walkBudget a.namespaceMembers_sublist
    (hvisits'.visited?_eq (Nat.le_refl _))
  have hbelow : (a.withUnit i d).namespaceMembers = a.namespaceMembers := rfl
  have husings : (a.withUnit i d).namespaceUsings = a.namespaceUsings := rfl
  rw [fileAliasHints?_of_payload (payload?_withUnit_self hunit), walkBudget_withUnit hunit h, hbelow,
    hwalk', Option.map_some]
  simp only [(a.agrees_withUnit i d).aliasHints_eq, husings, aliasHints_of_perm h.usings,
    FlagSet.unions_eq_of_mem_iff _ fun _ => hperm.mem_iff]

end Walks

end Arena

namespace SyntaxTree
variable {t : SyntaxTree} {unit d : Syntax.CompilationUnit}

/-- The tree with another payload for its compilation unit. -/
def withUnit (t : SyntaxTree) (d : Syntax.CompilationUnit) : SyntaxTree :=
  { t with arena := t.arena.withUnit t.root d }

theorem arena_withUnit (t : SyntaxTree) (d : Syntax.CompilationUnit) :
    (t.withUnit d).arena = t.arena.withUnit t.root d := rfl

theorem agrees_withUnit (t : SyntaxTree) (d : Syntax.CompilationUnit) : t.Agrees (t.withUnit d) where
  treeId := rfl
  options := rfl
  arena := t.arena.agrees_withUnit t.root d

section Namespaces
variable (hunit : t.arena.payload? .compilationUnit t.root = some unit)
  (hmembers : d.members = unit.members)
include hunit hmembers

/-- The place of a namespace depends on which member of the unit is the first one. -/
theorem placementCode?_withUnit (i : NodeIndex) (kind : SyntaxKind) :
    (t.withUnit d).placementCode? i kind = t.placementCode? i kind := by
  have hparent : (t.withUnit d).arena.parentOf i = t.arena.parentOf i := rfl
  have hkind : (t.withUnit d).arena.kindOf? = t.arena.kindOf? := rfl
  have hunits := Arena.payload?_withUnit (d := d) hunit (t.arena.parentOf i)
  rw [← arena_withUnit] at hunits
  obtain hsame | ⟨hold, hnew⟩ := hunits
  · simp only [placementCode?, hparent, hkind, hsame]
  · simp only [placementCode?, hparent, hkind, hold, hnew, Option.bind_eq_bind, Option.bind_some,
      hmembers]

theorem namespaceChain_withUnit (i : NodeIndex) (kind : SyntaxKind) (e : Syntax.Namespace)
    (inner : List Declaration) :
    (t.withUnit d).namespaceChain i kind e inner = t.namespaceChain i kind e inner := by
  have hagrees := t.agrees_withUnit d
  have hinner (segment : NodeIndex) :
      (t.withUnit d).innerHeader i e segment = t.innerHeader i e segment :=
    hagrees.innerHeader_eq i e e.members segment
  have hdiagnostics : (t.withUnit d).namespaceDiagnostics i kind e =
      t.namespaceDiagnostics i kind e := by
    simp only [namespaceDiagnostics, placementCode?_withUnit hunit hmembers,
      hagrees.arena.segments_eq]
    rfl
  simp only [namespaceChain, funext hagrees.outerHeader_eq, hinner, hdiagnostics,
    hagrees.arena.segments_eq]

end Namespaces

end SyntaxTree

namespace Builder
variable {t : SyntaxTree} {unit d : Syntax.CompilationUnit} {hints : AttributeHints}

theorem openMember_withUnit (i : NodeIndex) :
    (⟨t.withUnit d, hints⟩ : Builder).openMember i = (⟨t, hints⟩ : Builder).openMember i := by
  have hagrees := t.agrees_withUnit d
  have hclass (kind : TypeKind) (e : Syntax.TypeDecl) :
      (t.withUnit d).classHeader hints i kind e = t.classHeader hints i kind e :=
    hagrees.classHeader_eq hints i kind e fun _ => rfl
  simp only [openMember, openType, openDelegate, openEnum, hclass, hagrees.delegateHeader_eq,
    hagrees.enumHeader_eq]
  rfl

theorem Opens.withUnit {i : NodeIndex} {o : Opened} (ho : (⟨t, hints⟩ : Builder).Opens i o) :
    (⟨t.withUnit d, hints⟩ : Builder).Opens i o :=
  openMember_eq_ok_iff.1 ((openMember_withUnit i).trans ho.openMember_eq)

theorem openFault?_withUnit (i : NodeIndex) :
    (⟨t.withUnit d, hints⟩ : Builder).openFault? i = (⟨t, hints⟩ : Builder).openFault? i := by
  rw [← error?_openMember, openMember_withUnit, error?_openMember]

variable (hunit : t.arena.payload? .compilationUnit t.root = some unit)
include hunit

theorem close_withUnit (hmembers : d.members = unit.members) (o : Opened)
    (inner : List Declaration) :
    (⟨t.withUnit d, hints⟩ : Builder).close o inner = (⟨t, hints⟩ : Builder).close o inner := by
  cases o with
  | leaf header => rfl
  | ofNamespace pending members =>
    exact SyntaxTree.namespaceChain_withUnit hunit hmembers _ _ _ _
  | ofType header members => rfl

theorem declarationsFrom_withUnit (hints : AttributeHints) (depth : Nat) (members : NodeList) :
    Outcome.Alike (fun row row' => d.members = unit.members → row' = row)
      ((⟨t, hints⟩ : Builder).declarationsFrom depth members)
      ((⟨t.withUnit d, hints⟩ : Builder).declarationsFrom depth members) := by
  -- below a member by the depth, and along a row of members by the rest of the row
  induction depth generalizing members with
  | zero =>
    cases members with
    | nil => exact .ok fun _ => rfl
    | cons i rest => exact .error _
  | succ depth ih =>
    induction members with
    | nil => exact .ok fun _ => rfl
    | cons i rest ihRest =>
      rw [declarationsFrom_cons, declarationsFrom_cons]
      obtain ⟨o, ho, -⟩ | ⟨e, -, hfault⟩ := (⟨t, hints⟩ : Builder).opens_or_fault i
      · rw [declarationFrom_of_opens ho, declarationFrom_of_opens ho.withUnit, Outcome.bind_assoc,
          Outcome.bind_assoc]
        refine (ih o.members).bind fun inner inner' hinner => ?_
        refine ihRest.bind fun later later' hlater => .ok fun hmembers => ?_
        rw [hinner hmembers, hlater hmembers, close_withUnit hunit hmembers]
      · rw [declarationFrom_of_fault hfault,
          declarationFrom_of_fault ((openFault?_withUnit i).trans hfault)]
        exact .error e

end Builder

namespace SyntaxTree
variable {t : SyntaxTree} {unit d : Syntax.CompilationUnit} {s : Sources}

theorem fileHints_eq_ok_iff {hints : AttributeHints} :
    t.fileHints = .ok hints ↔ t.arena.fileAliasHints? t.root = some hints := by
  unfold fileHints
  cases t.arena.fileAliasHints? t.root <;> simp

/-- Where every stage succeeds, what a unit lists is built. -/
theorem sources_of_stages {hints : AttributeHints} (hhints : t.fileHints = .ok hints)
    (hkind : t.arena.kindOf? t.root = some .compilationUnit)
    (hunit : t.arena.payload? .compilationUnit t.root = some s.unit)
    (hlisted : t.listMembers .compilationUnit s.unit.members = .ok s.listed)
    (hbuilt : (⟨t, hints⟩ : Builder).declarationsOf
      (ListedMember.select s.listed .declaration) = .ok s.built) : t.sources = .ok s := by
  simp [sources, checkRoot, hkind, hhints, payload, hunit, hlisted, hbuilt]

/-- What can be built is built in another order of the unit too. -/
theorem sources_withUnit (hs : t.sources = .ok s) (h : d.Reorders s.unit) :
    ∃ s', (t.withUnit d).sources = .ok s' ∧ s'.unit = d ∧ s.listed.Perm s'.listed ∧
      (d.members = s.unit.members → s' = { s with unit := d }) := by
  obtain ⟨hints, hhints, hkind, hunit, hlisted, hbuilt⟩ := sources_stages hs
  rw [← select_eq_declaredMembers hkind rfl hlisted] at hbuilt
  rw [memberList_of_unit hunit] at hlisted
  -- what is listed and what is built, each first in the order of old and then in the new one
  obtain ⟨listed, hlisted', hperm⟩ := Outcome.mapM_perm h.members.symm hlisted
  have hselect : (ListedMember.select s.listed .declaration).Perm
      (ListedMember.select listed .declaration) := (hperm.filter _).map _
  rw [Builder.declarationsOf_eq_size] at hbuilt
  have halike := Builder.declarationsFrom_withUnit (d := d) hunit hints
    (t.arena.size + 1) (ListedMember.select s.listed .declaration)
  rw [hbuilt] at halike
  obtain ⟨row, hrow, hsame⟩ : ∃ row, (⟨t.withUnit d, hints⟩ : Builder).declarationsFrom
      (t.arena.size + 1) (ListedMember.select s.listed .declaration) = .ok row ∧
        (d.members = s.unit.members → row = s.built) := by
    generalize (⟨t.withUnit d, hints⟩ : Builder).declarationsFrom _ _ = outcome at halike
    cases halike with
    | ok hsame => exact ⟨_, rfl, hsame⟩
  obtain ⟨built, hbuilt', -⟩ := Outcome.mapM_perm hselect hrow
  have hhints' : (t.withUnit d).fileHints = .ok hints := by
    rw [fileHints_eq_ok_iff] at hhints ⊢
    exact Arena.fileAliasHints?_withUnit hunit h hhints
  refine ⟨⟨d, listed, built⟩, sources_of_stages hhints' hkind
    (Arena.payload?_withUnit_self hunit) hlisted' ?_, rfl, hperm, fun hmembers => ?_⟩
  · rw [Builder.declarationsOf_eq_size]
    exact hbuilt'
  · have hlist : listed = s.listed := by
      rw [hmembers] at hlisted'
      exact Except.ok.inj (hlisted'.symm.trans hlisted)
    have hbuild : built = row := by
      rw [hlist] at hbuilt'
      exact Except.ok.inj (hbuilt'.symm.trans hrow)
    rw [hlist, hbuild, hsame hmembers]

section Root
variable (hunit : t.arena.payload? .compilationUnit t.root = some unit) (h : d.Reorders unit)
include hunit h

theorem simpleProgram_withUnit (container first : NodeIndex) (globals : NodeList) :
    (t.withUnit d).simpleProgram container first globals =
      t.simpleProgram container first globals :=
  (t.agrees_withUnit d).simpleProgram_eq (Arena.containsNode_withUnit hunit h) container first globals

theorem wrappers_withUnit (container : NodeIndex) (members : NodeList)
    (listed : List ListedMember) (acceptsStatements : Bool) :
    (t.withUnit d).wrappers container members listed acceptsStatements =
      t.wrappers container members listed acceptsStatements := by
  simp only [wrappers, simpleProgram_withUnit hunit h]
  rfl

theorem rootChildren_withUnit (hmembers : d.members = unit.members) (options : DeclarationOptions)
    (listed : List ListedMember) (built : List Declaration) :
    (t.withUnit d).rootChildren options ⟨d, listed, built⟩ =
      t.rootChildren options ⟨unit, listed, built⟩ := by
  simp only [rootChildren, wrappers_withUnit hunit h, hmembers]
  rfl

end Root

end SyntaxTree

end DeclTree
