import DeclTree.Proofs.NameParts
import DeclTree.Proofs.OutlineBuild
/-!
Trees that differ in how their nodes are laid out: in the indices of the nodes, in the places of the
payloads within their pools, and in further nodes that belong to no part of the other tree. What is
declared does not depend on the layout, but for the indices that it mentions.
-/
namespace DeclTree

namespace Arena

/-- Every node of the first arena stands in the second one at another index, with what it links to at
the other indices too. What names no node goes on naming none. -/
structure Relocates (a : Arena) (p : NodeIndex → NodeIndex) (a' : Arena) : Prop where
  missing : p .missing = .missing
  injective : ∀ i j, (a.get? i).isSome → (a.get? j).isSome → p i = p j → i = j
  node : ∀ i h, a.get? i = some h →
    ∃ h', a'.get? (p i) = some h' ∧ h'.kind = h.kind ∧ h'.flags = h.flags ∧ h'.span = h.span
  payload : ∀ i, (a.get? i).isSome → ∀ s, a'.payload? s (p i) = (a.payload? s i).map (s.rename p)
  parent : ∀ i, (a.get? i).isSome → a'.parentOf (p i) = p (a.parentOf i)
  dangling : ∀ i, i ≠ .missing → a.get? i = none → p i ≠ .missing ∧ a'.get? (p i) = none

namespace Relocates
variable {a a' : Arena} {p : NodeIndex → NodeIndex} (h : a.Relocates p a')
include h

theorem get?_eq_none {i : NodeIndex} (hget : a.get? i = none) : a'.get? (p i) = none := by
  by_cases hi : i = .missing
  · rw [hi, h.missing, get?_missing]
  · exact (h.dangling i hi hget).2

theorem isMissing_eq (i : NodeIndex) : (p i).isMissing = i.isMissing := by
  by_cases hi : i = .missing
  · rw [hi, h.missing]
  · have hp : p i ≠ .missing := by
      cases hget : a.get? i with
      | none => exact (h.dangling i hi hget).1
      | some hd =>
        obtain ⟨hd', hget', -⟩ := h.node i hd hget
        intro hmissing
        rw [hmissing, get?_missing] at hget'
        cases hget'
    simp [NodeIndex.isMissing, hi, hp]

theorem payload?_eq (s : Shape) (i : NodeIndex) :
    a'.payload? s (p i) = (a.payload? s i).map (s.rename p) := by
  cases hget : a.get? i with
  | none =>
    rw [payload?_eq_none_of_get? hget, payload?_eq_none_of_get? (h.get?_eq_none hget)]
    rfl
  | some hd => exact h.payload i (by simp [hget]) s

theorem sameOutline : a.SameOutline p a' where
  isMissing := h.isMissing_eq
  traits i := by
    cases hget : a.get? i with
    | none => rw [h.get?_eq_none hget]
    | some hd =>
      obtain ⟨hd', hget', hkind, hflags, hspan⟩ := h.node i hd hget
      rw [hget', Option.map_some, Option.map_some, Header.traits, hkind, hflags, hspan]
      rfl
  payload s _ i := by
    rw [h.payload?_eq, Option.map_map]
    rfl

section Statements

theorem innerStatements_eq (i : NodeIndex) :
    a'.innerStatements (p i) = (a.innerStatements i).map p := by
  rw [innerStatements, innerStatements, h.sameOutline.kindOf?_eq, h.payload?_eq]
  cases a.kindOf? i with
  | none => rfl
  | some kind =>
    cases hnested : kind.isNestedFunction with
    | true => simp [hnested]
    | false => cases a.payload? .composite i <;> simp [hnested, Shape.rename]

theorem isAwait_eq (i : NodeIndex) : a'.isAwait (p i) = a.isAwait i := by
  rw [isAwait, isAwait]
  cases hget : a.get? i with
  | none => rw [h.get?_eq_none hget]
  | some hd =>
    obtain ⟨hd', hget', hkind, hflags, -⟩ := h.node i hd hget
    simp only [hget', hkind, Header.hasFlag, hflags]

theorem isYield_eq (i : NodeIndex) : a'.isYield (p i) = a.isYield i := by
  rw [isYield, h.sameOutline.kindOf?_eq, isYield]

theorem isValueReturn_eq (i : NodeIndex) : a'.isValueReturn (p i) = a.isValueReturn i := by
  rw [isValueReturn, isValueReturn, h.sameOutline.kindOf?_eq, h.payload?_eq]
  cases a.payload? .composite i <;> simp [Shape.rename]

theorem containsNode_eq {q q' : NodeIndex → Bool} (hq : ∀ i, q' (p i) = q i)
    (statement : NodeIndex) : a'.containsNode (p statement) q' = a.containsNode statement q := by
  have hwalk := Walk.meets?_walkBudget_map a.innerStatements_sublist a'.innerStatements_sublist
    h.innerStatements_eq hq [statement]
  rw [containsNode, containsNode, ← hwalk]
  rfl

theorem hasAwait_eq (statement : NodeIndex) :
    a'.hasAwait (p statement) = a.hasAwait statement :=
  h.containsNode_eq h.isAwait_eq statement

theorem hasYield_eq (statement : NodeIndex) :
    a'.hasYield (p statement) = a.hasYield statement :=
  h.containsNode_eq h.isYield_eq statement

theorem hasValueReturn_eq (statement : NodeIndex) :
    a'.hasValueReturn (p statement) = a.hasValueReturn statement :=
  h.containsNode_eq h.isValueReturn_eq statement

end Statements

section Names

theorem nameEnds {i : NodeIndex} (hi : a.NameEnds i) : a'.NameEnds (p i) := by
  induction hi with
  | simple hsimple =>
    refine .simple ?_
    rw [h.sameOutline.qualified?_eq, hsimple, Option.map_none]
  | @qualified i d hd _ ih =>
    have hd' : a'.qualified? (p i) = some (Shape.rename p .qualifiedName d) := by
      rw [h.sameOutline.qualified?_eq, hd, Option.map_some]
    exact .qualified hd' ih

/-- A name that ends has the same segments in both arenas, whichever of them is larger. -/
theorem segments_eq {i : NodeIndex} (hi : a.NameEnds i) :
    a'.segments (p i) = (a.segments i).map (·.rename p) := by
  rw [← hi.segmentsFrom_eq (Nat.le_max_left a.size a'.size),
    ← (h.nameEnds hi).segmentsFrom_eq (Nat.le_max_right a.size a'.size),
    h.sameOutline.segmentsFrom_eq]

end Names

end Relocates

end Arena

/-- The declarations of a file with other indices in their references. -/
def RootDeclaration.rename (p : NodeIndex → NodeIndex) (r : RootDeclaration) : RootDeclaration :=
  { r with
    reference := r.reference.rename p
    children := r.children.map (·.mapHeaders (·.rename p) (·.rename p)) }

namespace SyntaxTree

/-- Two trees of one file, the second of which has the nodes of the first one at other indices. -/
structure Relocates (t : SyntaxTree) (p : NodeIndex → NodeIndex) (t' : SyntaxTree) : Prop where
  treeId : t'.id = t.id
  options : t'.options = t.options
  root : t'.root = p t.root
  arena : t.arena.Relocates p t'.arena

/-- The names of all namespaces that a build comes to have a first segment. -/
def NamesEnd (t : SyntaxTree) : Prop :=
  ∀ i d, t.Reached i → t.arena.payload? .namespaceDecl i = some d → t.arena.NameEnds d.name

namespace Relocates
variable {t t' : SyntaxTree} {p : NodeIndex → NodeIndex} (h : t.Relocates p t')
include h

theorem sameOutline : t.SameOutline p t' where
  treeId := h.treeId
  options := h.options
  root := h.root
  arena := h.arena.sameOutline

/-- Whether a namespace comes first in its file is a comparison of indices, and the only one. -/
theorem placementCode?_eq {i : NodeIndex} (hi : (t.arena.get? i).isSome) (kind : SyntaxKind) :
    t'.placementCode? (p i) kind = t.placementCode? i kind := by
  have hfirst (first : NodeIndex) : p first = p i ↔ first = i := by
    refine ⟨fun heq => ?_, fun heq => congrArg p heq⟩
    cases hget : t.arena.get? first with
    | none =>
      obtain ⟨hd, hsome⟩ := Option.isSome_iff_exists.1 hi
      obtain ⟨hd', hsome', -⟩ := h.arena.node i hd hsome
      rw [← heq, h.arena.get?_eq_none hget] at hsome'
      cases hsome'
    | some hd => exact h.arena.injective first i (by simp [hget]) hi heq
  simp only [placementCode?, h.arena.parent i hi, h.arena.sameOutline.kindOf?_eq,
    h.arena.payload?_eq, Option.bind_eq_bind, Option.bind_map, Function.comp_def, Shape.rename,
    List.head?_map, hfirst]

theorem headersAlike (hnames : t.NamesEnd) : SameOutline.HeadersAlike t p t' (·.rename p) := by
  intro i k d hi hk _ hd
  have hsome : (t.arena.get? i).isSome := by
    rw [Arena.kindOf?, Option.map_eq_some_iff] at hk
    obtain ⟨hd, hget, -⟩ := hk
    simp [hget]
  exact h.sameOutline.namespaceHeaders_eq (h.placementCode?_eq hsome k)
    (h.arena.segments_eq (hnames i d hi hd))

theorem programFacts_eq (statements : NodeList) :
    t'.programFacts (statements.map p) = t.programFacts statements := by
  simp only [programFacts, List.any_map, Function.comp_def, h.arena.hasAwait_eq,
    h.arena.hasYield_eq, h.arena.hasValueReturn_eq]

theorem simpleProgram_eq (unit first : NodeIndex) (globals : NodeList) :
    t'.simpleProgram (p unit) (p first) (globals.map p) =
      (t.simpleProgram unit first globals).mapHeaders (·.rename p) := by
  rw [h.sameOutline.simpleProgram_eq, h.programFacts_eq, simpleProgram_eq_any,
    TypeDeclaration.mapHeaders_mk]
  rfl

theorem rootChildren_eq (options : DeclarationOptions) (s : Sources) :
    t'.rootChildren options (s.rename p (·.rename p)) =
      (t.rootChildren options s).map (·.mapHeaders (·.rename p) (·.rename p)) := by
  rw [rootChildren, rootChildren, h.sameOutline.isScript_eq]
  split
  · have hclass := h.sameOutline.scriptClass_eq options (g := (·.rename p)) (fun _ _ => rfl)
      s.unit.members (s.built.filterMap (·.type?))
    rw [List.map_append, List.map_singleton, ← hclass, ← Declaration.filter_isNone_map,
      ← Declaration.filterMap_type?_map (·.rename p) (·.rename p)]
    rfl
  · have hwrappers := h.sameOutline.map_wrappers_eq (f := fun ty => ty)
      (g := (·.mapHeaders (·.rename p))) t.root s.unit.members s.listed true
      (fun first globals _ _ => h.simpleProgram_eq t.root first (first :: globals)) rfl
    rw [List.map_id'] at hwrappers
    rw [List.map_append, Declaration.map_map_typeDecl, ← hwrappers, h.root]
    rfl

end Relocates

/-- What is declared in a file does not depend on the layout of its tree. -/
theorem declare_relocates {t t' : SyntaxTree} {p : NodeIndex → NodeIndex} (h : t.Relocates p t')
    (options : DeclarationOptions) (hnames : ∀ r, t.declare options = .ok r → t.NamesEnd) :
    t'.declare options = ((t.declare options).map (·.rename p)).mapError (·.rename p) := by
  have hsure : ∀ s, t.sources = .ok s → SameOutline.HeadersAlike t p t' (·.rename p) := by
    intro s hs
    refine h.headersAlike (hnames (t.rootDeclaration s.unit (t.rootChildren options s)) ?_)
    rw [declare_eq, hs, Outcome.ok_bind]
  rw [declare_eq, declare_eq, h.sameOutline.sources_follows.eq hsure]
  cases t.sources with
  | error e => rfl
  | ok s =>
    have hroot : t'.rootDeclaration (s.rename p (·.rename p)).unit
        (t'.rootChildren options (s.rename p (·.rename p))) =
          (t.rootDeclaration s.unit (t.rootChildren options s)).rename p := by
      rw [h.rootChildren_eq]
      exact h.sameOutline.rootDeclaration_eq s.unit _
    exact congrArg Except.ok hroot

end SyntaxTree

namespace Arena

/-- The nodes of the mixed sample after a node that has nothing to do with them, and in another order. -/
def sampleMoved : Arena :=
  let a : Arena := {}
  let a := (a.add .identifier .identifierToken ⟨40, 41⟩ (⟨"X"⟩ : Syntax.Identifier)).2
  let a := (a.add .globalStatement .globalStatement ⟨55, 59⟩ ({} : Syntax.GlobalStatement)).2
  let a := (a.add .identifier .identifierToken ⟨47, 48⟩ (⟨"M"⟩ : Syntax.Identifier)).2
  let a := (a.add .method .methodDeclaration ⟨42, 54⟩
    ({ identifier := .ofNat 2 } : Syntax.Method)).2
  let a := (a.add .identifier .identifierToken ⟨34, 35⟩ (⟨"C"⟩ : Syntax.Identifier)).2
  let a := (a.add .typeDecl .classDeclaration ⟨28, 39⟩
    ({ identifier := .ofNat 4 } : Syntax.TypeDecl)).2
  let a := (a.add .identifier .identifierName ⟨24, 25⟩ (⟨"B"⟩ : Syntax.Identifier)).2
  let a := (a.add .identifier .identifierName ⟨22, 23⟩ (⟨"A"⟩ : Syntax.Identifier)).2
  let a := (a.add .qualifiedName .qualifiedName ⟨22, 25⟩
    (⟨.ofNat 7, .ofNat 6⟩ : Syntax.QualifiedName)).2
  let a := (a.add .namespaceDecl .namespaceDeclaration ⟨12, 41⟩
    ({ name := .ofNat 8, members := [.ofNat 5] } : Syntax.Namespace)).2
  let a := (a.add .identifier .identifierToken ⟨6, 7⟩ (⟨"D"⟩ : Syntax.Identifier)).2
  let a := (a.add .typeDecl .classDeclaration ⟨0, 11⟩
    ({ identifier := .ofNat 10 } : Syntax.TypeDecl)).2
  (a.add .compilationUnit .compilationUnit ⟨0, 60⟩
    ({ members := [.ofNat 11, .ofNat 9, .ofNat 3, .ofNat 1] } : Syntax.CompilationUnit)).2

/-- Where the nodes of the sample are in that order. -/
def sampleMove (i : NodeIndex) : NodeIndex :=
  if i = .missing then .missing
  else .ofNat ([10, 11, 7, 6, 8, 4, 5, 9, 2, 3, 1, 12][i.toNat]?.getD 13)

/-- What holds of every node of an arena can be decided index by index. -/
theorem forall_node_iff {a : Arena} {P : NodeIndex → Prop} :
    (∀ i, (a.get? i).isSome → P i) ↔ ∀ n < a.size, (a.get? (.ofNat n)).isSome → P (.ofNat n) := by
  refine ⟨fun h n _ => h (.ofNat n), fun h i hi => ?_⟩
  obtain ⟨hd, hget⟩ := Option.isSome_iff_exists.1 hi
  have hn := h i.toNat (lt_size_of_get? hget)
  rw [ofNat_toNat] at hn
  exact hn hi

theorem size_le_of_get?_eq_none {a : Arena} {i : NodeIndex} (hi : i ≠ .missing)
    (hget : a.get? i = none) : a.size ≤ i.toNat := by
  have hmissing : i.isMissing = false := by simp [NodeIndex.isMissing, hi]
  rw [get?, hmissing, if_neg Bool.false_ne_true, Array.getElem?_eq_none_iff] at hget
  exact hget

theorem sampleMixed_relocates : sampleMixed.Relocates sampleMove sampleMoved where
  missing := by decide
  injective i j hi hj := by
    have hall : ∀ i, (sampleMixed.get? i).isSome → ∀ j, (sampleMixed.get? j).isSome →
        sampleMove i = sampleMove j → i = j := by
      simp only [forall_node_iff]
      decide +kernel
    exact hall i hi j hj
  node i h hget := by
    have hall : ∀ i, (sampleMixed.get? i).isSome →
        (sampleMoved.get? (sampleMove i)).map Header.traits = (sampleMixed.get? i).map Header.traits := by
      rw [forall_node_iff]
      decide +kernel
    have htraits := hall i (by simp [hget])
    rw [hget, Option.map_some, Option.map_eq_some_iff] at htraits
    obtain ⟨h', hget', heq⟩ := htraits
    exact ⟨h', hget', congrArg (·.1) heq, congrArg (·.2.1) heq, congrArg (·.2.2) heq⟩
  payload i hi s := by
    revert i
    rw [forall_node_iff]
    cases s <;> decide +kernel
  parent := by
    rw [forall_node_iff]
    decide +kernel
  dangling i hi hget := by
    have hle : 12 ≤ i.toNat := size_le_of_get?_eq_none hi hget
    have hmove : sampleMove i = .ofNat 13 := by
      rw [sampleMove, if_neg hi, List.getElem?_eq_none hle, Option.getD_none]
    rw [hmove]
    decide +kernel

end Arena

namespace SyntaxTree

def sampleMoved : SyntaxTree := ⟨⟨0⟩, "mixed.cs", {}, .sampleMoved, .ofNat 12⟩

theorem sampleMixed_relocates : sampleMixed.Relocates Arena.sampleMove sampleMoved where
  treeId := rfl
  options := rfl
  root := by decide +kernel
  arena := Arena.sampleMixed_relocates

theorem sampleMixed_declare_relocates : ∃ r, sampleMixed.declare {} = .ok r ∧
    r.declarations.map (·.name) = ["D", "A", "B", "C", "Program", "<invalid-global-code>"] ∧
    sampleMoved.declare {} = .ok (r.rename Arena.sampleMove) := by
  obtain ⟨r, hr⟩ : ∃ r, sampleMixed.declare {} = .ok r := Outcome.exists_eq_ok (by decide +kernel)
  have hnames : (sampleMixed.declare {}).map (fun r => r.declarations.map (·.name)) =
      .ok ["D", "A", "B", "C", "Program", "<invalid-global-code>"] := by decide +kernel
  have hends : sampleMixed.NamesEnd := fun _ d _ _ =>
    Arena.nameEnds_of_wellFounded Arena.sampleMixed_descends.wellFounded_nameCall d.name
  have hmoved := declare_relocates sampleMixed_relocates {} fun _ _ => hends
  rw [hr] at hmoved hnames
  exact ⟨r, hr, Except.ok.inj hnames, hmoved⟩

end SyntaxTree

end DeclTree
