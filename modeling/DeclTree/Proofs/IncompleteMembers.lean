import DeclTree.Proofs.Agreement
import DeclTree.Proofs.Assembly
/-!
Incomplete members, which stand in member lists for what is no member yet. A tree without their
entries is read as the tree with them: what is listed, what the members contribute, what types say of
themselves and what is made up are the same.
-/
namespace DeclTree

/-- A payload with other members, if it is that of a unit, a namespace, or a class or its like. -/
def Shape.mapMembers (f : NodeList → NodeList) : (s : Shape) → s.Data → s.Data
  | .compilationUnit, d => { d with members := f d.members }
  | .namespaceDecl, d => { d with members := f d.members }
  | .typeDecl, d => { d with members := f d.members }
  | _, d => d

theorem Shape.links_mapMembers_sublist {f : NodeList → NodeList}
    (hf : ∀ members, (f members).Sublist members) (s : Shape) (d : s.Data) :
    (s.links (s.mapMembers f d)).Sublist (s.links d) := by
  cases s with
  | compilationUnit => exact ((List.Sublist.refl _).append (hf _)).append (.refl _)
  | namespaceDecl | typeDecl => exact (List.Sublist.refl _).append (hf _)
  | _ => exact List.Sublist.refl _

/-- The pools with other members in all member lists. -/
def Pools.mapMembers (f : NodeList → NodeList) (p : Pools) : Pools :=
  { p with
    compilationUnits := p.compilationUnits.map (Shape.mapMembers f .compilationUnit)
    namespaces := p.namespaces.map (Shape.mapMembers f .namespaceDecl)
    typeDecls := p.typeDecls.map (Shape.mapMembers f .typeDecl) }

theorem Pools.of_mapMembers (f : NodeList → NodeList) (p : Pools) (s : Shape) :
    (p.mapMembers f).of s = (p.of s).map (s.mapMembers f) := by
  cases s with
  | compilationUnit | namespaceDecl | typeDecl => rfl
  | _ => exact (Array.map_id' _).symm

namespace Arena

/-- The entries of a member list but for the incomplete members. -/
def complete (a : Arena) (members : NodeList) : NodeList :=
  members.filter fun j => a.kindOf? j != some .incompleteMember

/-- An arena without the entries of incomplete members. The nodes themselves are still there. -/
def withoutIncomplete (a : Arena) : Arena := { a with pools := a.pools.mapMembers a.complete }

variable {a : Arena} {i j : NodeIndex}

theorem complete_cons_of_ne (hj : a.kindOf? j ≠ some .incompleteMember) (rest : NodeList) :
    a.complete (j :: rest) = j :: a.complete rest :=
  List.filter_cons_of_pos (by simpa using hj)

theorem complete_cons_of_incomplete (hj : a.kindOf? j = some .incompleteMember)
    (rest : NodeList) : a.complete (j :: rest) = a.complete rest :=
  List.filter_cons_of_neg (by simp [hj])

theorem payload?_withoutIncomplete (a : Arena) (s : Shape) (i : NodeIndex) :
    a.withoutIncomplete.payload? s i = (a.payload? s i).map (s.mapMembers a.complete) := by
  have hget : a.withoutIncomplete.get? i = a.get? i := rfl
  unfold payload?
  rw [hget]
  cases a.get? i with
  | none => rfl
  | some hd =>
    simp only [withoutIncomplete, Pools.of_mapMembers, Array.getElem?_map]
    split <;> rfl

theorem payload?_withoutIncomplete_of_some {s : Shape} {d : s.Data}
    (hd : a.payload? s i = some d) :
    a.withoutIncomplete.payload? s i = some (s.mapMembers a.complete d) := by
  rw [payload?_withoutIncomplete, hd, Option.map_some]

theorem links_withoutIncomplete_sublist (a : Arena) (i : NodeIndex) :
    (a.withoutIncomplete.links i).Sublist (a.links i) := by
  have hkind : a.withoutIncomplete.kindOf? i = a.kindOf? i := rfl
  unfold links
  rw [hkind]
  split
  · rename_i s _
    rw [payload?_withoutIncomplete]
    cases a.payload? s i with
    | none => exact List.nil_sublist _
    | some d => exact s.links_mapMembers_sublist (fun _ => List.filter_sublist) d
  · exact List.nil_sublist _

theorem Descends.withoutIncomplete (h : a.Descends) : a.withoutIncomplete.Descends :=
  fun i _ hj => h i _ ((a.links_withoutIncomplete_sublist i).subset hj)

theorem agrees_withoutIncomplete (a : Arena) : a.Agrees a.withoutIncomplete where
  headers := rfl
  payload s hs i := by
    have hsame : s.mapMembers a.complete = id := by
      cases s with
      | compilationUnit | namespaceDecl | typeDecl => cases hs
      | _ => rfl
    rw [payload?_withoutIncomplete, hsame, Option.map_id_apply]

section Walks

/-- The walk within a statement does not come to any member list. -/
theorem containsNode_withoutIncomplete (h : a.Descends) (statement : NodeIndex)
    (p : NodeIndex → Bool) :
    a.withoutIncomplete.containsNode statement p = a.containsNode statement p := by
  obtain ⟨visits, hvisits, hwalk⟩ := h.visited?_walkBudget a.innerStatements_sublist [statement]
  obtain ⟨visits', hvisits', hwalk'⟩ := h.withoutIncomplete.visited?_walkBudget
    a.withoutIncomplete.innerStatements_sublist [statement]
  rw [containsNode, containsNode, Walk.meets?_eq_any hwalk, Walk.meets?_eq_any hwalk',
    Walk.Preorder.unique hvisits' hvisits]

theorem namespaceMembers_withoutIncomplete (a : Arena) (i : NodeIndex) :
    a.withoutIncomplete.namespaceMembers i = a.complete (a.namespaceMembers i) := by
  rw [namespaceMembers, payload?_withoutIncomplete, namespaceMembers]
  cases a.payload? .namespaceDecl i <;> rfl

theorem namespaceUsings_withoutIncomplete (a : Arena) (i : NodeIndex) :
    a.withoutIncomplete.namespaceUsings i = a.namespaceUsings i := by
  rw [namespaceUsings, payload?_withoutIncomplete, namespaceUsings]
  cases a.payload? .namespaceDecl i <;> rfl

theorem payload?_of_incomplete (hj : a.kindOf? j = some .incompleteMember) {s : Shape}
    (hs : s ≠ .incompleteMember) : a.payload? s j = none := by
  cases hd : a.payload? s j with
  | none => rfl
  | some d =>
    have hshape := shape?_of_payload? hd
    rw [hj] at hshape
    exact absurd (Option.some.inj hshape).symm hs

theorem fileAliasHints?_withoutIncomplete (h : a.Descends) (unit : NodeIndex) :
    a.withoutIncomplete.fileAliasHints? unit = a.fileAliasHints? unit := by
  cases hd : a.payload? .compilationUnit unit with
  | none =>
    have hunit : a.withoutIncomplete.payload? .compilationUnit unit = none := by
      rw [payload?_withoutIncomplete, hd, Option.map_none]
    simp [fileAliasHints?, hd, hunit]
  | some d =>
    have hunit := payload?_withoutIncomplete_of_some hd
    obtain ⟨visits, hvisits, hwalk⟩ := h.visited?_walkBudget a.namespaceMembers_sublist d.members
    obtain ⟨visits', hvisits', hwalk'⟩ := h.withoutIncomplete.visited?_walkBudget
      a.withoutIncomplete.namespaceMembers_sublist (a.complete d.members)
    -- what is no namespace has no members, and its visit gives no hint
    have hincomplete (j : NodeIndex) (hj : (a.kindOf? j != some .incompleteMember) = false) :
        a.payload? .namespaceDecl j = none :=
      payload?_of_incomplete (by simpa using hj) (by decide)
    have hleaf (j : NodeIndex) (hj : (a.kindOf? j != some .incompleteMember) = false) :
        a.namespaceMembers j = [] := by
      rw [namespaceMembers, hincomplete j hj]
      rfl
    have hsame : visits' = a.complete visits :=
      hvisits'.unique (hvisits.filter a.namespaceMembers_withoutIncomplete hleaf)
    have hhints : FlagSet.unions
        (fun i => a.withoutIncomplete.aliasHints (a.withoutIncomplete.namespaceUsings i) false)
          (a.complete visits) =
        .unions (fun i => a.aliasHints (a.namespaceUsings i) false) visits := by
      simp only [a.agrees_withoutIncomplete.aliasHints_eq, namespaceUsings_withoutIncomplete]
      refine FlagSet.unions_filter (fun j hj => ?_) visits
      rw [namespaceUsings, hincomplete j hj]
      rfl
    rw [fileAliasHints?_of_payload hunit, fileAliasHints?_of_payload hd, hwalk, Option.map_some,
      ← hhints, ← hsame]
    simp only [Shape.mapMembers, hwalk', Option.map_some,
      a.agrees_withoutIncomplete.aliasHints_eq]

end Walks

theorem collectMember_of_incomplete (hj : a.kindOf? j = some .incompleteMember)
    (skipStatements : Bool) (known : MemberSummary) :
    a.collectMember skipStatements known j = known := by
  have hnames : a.memberNames j = [] := by simp [memberNames, hj]
  have hfacts : a.memberFacts skipStatements j = ∅ := by
    simp [memberFacts, isNonTypeMember, isExtensionMethod, memberHasAttributes, isRequiredMember, hj,
      SyntaxKind.shape?, SyntaxKind.isComposite, SyntaxKind.isNamespace, SyntaxKind.isClassLike,
      FlagSet.when]
  rw [collectMember_eq, hnames, hfacts, FlagSet.union_empty]
  rfl

theorem memberSummary_complete (a : Arena) (members : NodeList)
    (skipStatements hasPrimaryConstructor : Bool) :
    a.memberSummary (a.complete members) skipStatements hasPrimaryConstructor =
      a.memberSummary members skipStatements hasPrimaryConstructor := by
  have hcollect : (fun known j => if a.kindOf? j != some .incompleteMember then
      a.collectMember skipStatements known j else known) = a.collectMember skipStatements := by
    funext known j
    split
    · rfl
    case isFalse hj => exact (collectMember_of_incomplete (by simpa using hj) _ known).symm
  rw [memberSummary, complete, List.foldl_filter, hcollect, memberSummary]

end Arena

/-- The members of a class are still there where others are left out. -/
theorem ListedMember.select_filter {c : MemberClass} {p : ListedMember → Bool}
    {listed : List ListedMember} (h : ∀ m, m.memberClass = c → p m = true) :
    select (listed.filter p) c = select listed c := by
  rw [select, List.filter_filter, select]
  congr 1
  refine List.filter_congr fun m _ => ?_
  cases hc : m.memberClass == c with
  | false => rfl
  | true => simp [h m (by simpa using hc)]

theorem SyntaxKind.eq_enumDeclaration_of_shape? {k : SyntaxKind} (h : k.shape? = some .enumDecl) :
    k = .enumDeclaration := by
  cases k <;> first | rfl | cases h

theorem SyntaxKind.memberClass?_eq_incomplete (k : SyntaxKind) :
    k.memberClass? = some .incomplete ↔ k = .incompleteMember := by
  cases k <;> decide

namespace SyntaxTree

/-- A tree without the entries of incomplete members. -/
def withoutIncomplete (t : SyntaxTree) : SyntaxTree :=
  { t with arena := t.arena.withoutIncomplete }

variable {t : SyntaxTree}

theorem arena_withoutIncomplete (t : SyntaxTree) :
    t.withoutIncomplete.arena = t.arena.withoutIncomplete := rfl

theorem agrees_withoutIncomplete (t : SyntaxTree) : t.Agrees t.withoutIncomplete where
  treeId := rfl
  options := rfl
  arena := t.arena.agrees_withoutIncomplete

theorem classHeader_withoutIncomplete (hints : AttributeHints) (i : NodeIndex) (kind : TypeKind)
    (d : Syntax.TypeDecl) :
    t.withoutIncomplete.classHeader hints i kind (Shape.mapMembers t.arena.complete .typeDecl d) =
      t.classHeader hints i kind d :=
  t.agrees_withoutIncomplete.classHeader_eq hints i kind d
    (t.arena.memberSummary_complete d.members false)

section Lists
variable {j : NodeIndex}

theorem listMembers_cons (container : SyntaxKind) (j : NodeIndex) (rest : NodeList) :
    t.listMembers container (j :: rest) = (t.classify container j >>= fun m =>
      t.listMembers container rest >>= fun listed => .ok (m :: listed)) :=
  Outcome.mapM_cons j rest

theorem memberClassOf?_eq_incomplete :
    t.memberClassOf? j = some .incomplete ↔ t.arena.kindOf? j = some .incompleteMember := by
  rw [memberClassOf?]
  cases t.arena.kindOf? j with
  | none => simp
  | some k => simpa using k.memberClass?_eq_incomplete

theorem memberList_withoutIncomplete (t : SyntaxTree) (i : NodeIndex) :
    t.withoutIncomplete.memberList i = t.arena.complete (t.memberList i) := by
  have hkind : t.withoutIncomplete.arena.kindOf? i = t.arena.kindOf? i := rfl
  simp only [memberList, Arena.members?, hkind]
  simp only [arena_withoutIncomplete, Arena.payload?_withoutIncomplete]
  split
  · rfl
  · rename_i hnot
    split
    · cases t.arena.payload? .compilationUnit i <;> rfl
    · cases t.arena.payload? .namespaceDecl i <;> rfl
    · cases t.arena.payload? .typeDecl i <;> rfl
    · rename_i hshape
      obtain ⟨k, hk, hs⟩ := Option.bind_eq_some_iff.1 hshape
      exact absurd (hk.trans (congrArg some (SyntaxKind.eq_enumDeclaration_of_shape? hs))) hnot
    · rfl

/-- No incomplete member becomes a declaration. -/
theorem declaredMembers_withoutIncomplete (t : SyntaxTree) (i : NodeIndex) :
    t.withoutIncomplete.declaredMembers i = t.declaredMembers i := by
  have hkind : t.withoutIncomplete.arena.kindOf? = t.arena.kindOf? := rfl
  rw [declaredMembers, memberList_withoutIncomplete, Arena.complete, List.filter_filter, hkind,
    declaredMembers]
  refine List.filter_congr fun j _ => ?_
  by_cases hj : t.arena.kindOf? j = some .incompleteMember
  · rw [hj]
    cases t.arena.kindOf? i <;> rfl
  · simp [hj]

theorem listMembers_withoutIncomplete (container : SyntaxKind) (members : NodeList) :
    t.withoutIncomplete.listMembers container (t.arena.complete members) =
      (t.listMembers container members).map (List.filter (·.memberClass != .incomplete)) := by
  induction members with
  | nil => rfl
  | cons j rest ih =>
    have hclassify : t.withoutIncomplete.classify container j = t.classify container j := rfl
    by_cases hj : t.arena.kindOf? j = some .incompleteMember
    · have hlisted : t.classify container j = .ok ⟨j, .incomplete⟩ := by
        obtain ⟨hd, hget, hkind⟩ := Option.map_eq_some_iff.1 hj
        simp [classify, memberHeader, hget, hkind, SyntaxKind.memberClass?,
          SyntaxKind.isDeclaration, SyntaxKind.isNamespace, SyntaxKind.isClassLike]
      rw [Arena.complete_cons_of_incomplete hj, ih, listMembers_cons, hlisted, Outcome.ok_bind]
      cases t.listMembers container rest <;> rfl
    · rw [Arena.complete_cons_of_ne hj, listMembers_cons, listMembers_cons, hclassify, ih]
      cases hm : t.classify container j with
      | error e => rfl
      | ok m =>
        have hclass : m.memberClass ≠ .incomplete := by
          intro hincomplete
          have hmember := (classify_eq_ok hm).2
          rw [hincomplete, memberClassOf?_eq_incomplete] at hmember
          exact hj hmember
        cases t.listMembers container rest with
        | error e => rfl
        | ok listed => simp [Except.map, hclass]

/-- No incomplete member is at fault. -/
theorem nodeFault?_withoutIncomplete (t : SyntaxTree) (i : NodeIndex) :
    t.withoutIncomplete.nodeFault? i = t.nodeFault? i := by
  have hkind : t.withoutIncomplete.arena.kindOf? i = t.arena.kindOf? i := rfl
  have hentries (k : SyntaxKind) :
      (t.arena.complete (t.memberList i)).findSome? (t.withoutIncomplete.entryFault? k) =
        (t.memberList i).findSome? (t.entryFault? k) := by
    rw [← error?_listMembers, ← error?_listMembers, listMembers_withoutIncomplete]
    cases t.listMembers k (t.memberList i) <;> rfl
  simp only [nodeFault?, hkind, memberList_withoutIncomplete, hentries]
  simp only [arena_withoutIncomplete, Arena.payload?_withoutIncomplete]
  split
  · rfl
  · split
    · rfl
    · rename_i s _
      cases t.arena.payload? s i <;> rfl

end Lists

section MadeUp

theorem implicitClass_withoutIncomplete (container : NodeIndex) (members : NodeList)
    (skipStatements : Bool) :
    t.withoutIncomplete.implicitClass container (t.arena.complete members) skipStatements =
      t.implicitClass container members skipStatements := by
  rw [t.agrees_withoutIncomplete.implicitClass_eq, implicitClass, Arena.memberSummary_complete]
  rfl

theorem scriptClass_withoutIncomplete (options : DeclarationOptions) (members : NodeList)
    (inner : List TypeDeclaration) :
    t.withoutIncomplete.scriptClass options (t.arena.complete members) inner =
      t.scriptClass options members inner := by
  rw [scriptClass, t.agrees_withoutIncomplete.arena.memberSummary_eq, Arena.memberSummary_complete]
  rfl

theorem simpleProgram_withoutIncomplete (h : t.arena.Descends) (unit first : NodeIndex)
    (globals : NodeList) :
    t.withoutIncomplete.simpleProgram unit first globals = t.simpleProgram unit first globals :=
  t.agrees_withoutIncomplete.simpleProgram_eq (Arena.containsNode_withoutIncomplete h) unit first
    globals

/-- Nothing is made up for incomplete members. -/
theorem wrappers_withoutIncomplete (h : t.arena.Descends) (i : NodeIndex) (members : NodeList)
    (listed : List ListedMember) (acceptsStatements : Bool) :
    t.withoutIncomplete.wrappers i (t.arena.complete members)
        (listed.filter (·.memberClass != .incomplete)) acceptsStatements =
      t.wrappers i members listed acceptsStatements := by
  have hstatements :
      ListedMember.select (listed.filter (·.memberClass != .incomplete)) .statement =
        ListedMember.select listed .statement :=
    ListedMember.select_filter fun m hm => by rw [hm]; rfl
  have houtside (m : ListedMember) : ((m.memberClass != .incomplete) &&
      (m.memberClass == .nonType || (m.memberClass == .statement && !acceptsStatements))) =
        (m.memberClass == .nonType || (m.memberClass == .statement && !acceptsStatements)) := by
    cases m.memberClass <;> rfl
  simp only [wrappers, hstatements, List.any_filter, houtside, simpleProgram_withoutIncomplete h,
    implicitClass_withoutIncomplete]

end MadeUp

end SyntaxTree

end DeclTree
