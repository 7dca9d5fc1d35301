import DeclTree.Proofs.Census
import DeclTree.Proofs.Composition
import DeclTree.Proofs.ReportsOnce
/-!
No problem is reported twice in a tree that calls have composed. Each node reports different codes or
at different parts, no part belongs to two nodes, and no two nodes have the same range.
-/
namespace DeclTree

/-- The codes that are reported at the parts of a declaration. -/
def Code.ofParts : List Code :=
  ofModifiers ++ ofNames ++ [constraintOnNonGeneric, modifiersOnNamespace]

/-- The codes that are reported of a whole file. -/
def Code.ofFiles : List Code := [globalUsingOutOfOrder, emptyProgram]

namespace SyntaxTree

/-- Where a code may be reported of a node. -/
def Marks (t : SyntaxTree) (i : NodeIndex) (code : Code) (place : NodeIndex) : Prop :=
  t.IsPlaceOf i code place ∧ place.isPresent = true ∧ code ∉ Code.ofFiles

section Nodes
variable {t : SyntaxTree} {free : Multiset NodeIndex} {i : NodeIndex}

theorem marks_of_mem_links {code : Code} {place : NodeIndex} (hcode : code ∈ Code.ofParts)
    (hplace : place ∈ t.arena.links i) (hpresent : place.isPresent = true) :
    t.Marks i code place := by
  have hall : Code.ofParts.all (fun code =>
      code ≠ Code.globalUsingInNamespace ∧ code ∉ Code.ofFiles) = true := by decide
  obtain ⟨hother, hfiles⟩ := of_decide_eq_true (List.all_eq_true.1 hall code hcode)
  exact ⟨isPlaceOf_of_mem hplace code hother, hpresent, hfiles⟩

variable (howned : t.arena.Owned free)
include howned

theorem mem_links_of_mem_entries {s : Shape} {d : s.Data}
    (hd : t.arena.payload? s i = some d) {j : NodeIndex} (hj : j ∈ s.entries d) :
    j ∈ t.arena.links i ∧ j.isPresent = true := by
  refine ⟨?_, howned.entry_present i s d hd j hj⟩
  rw [Arena.links_of_payload? hd]
  exact (List.drop_sublist _ _).subset hj

/-- No node is twice in the lists of a payload. -/
theorem nodup_entries {s : Shape} {d : s.Data} (hd : t.arena.payload? s i = some d) :
    (s.entries d).Nodup := by
  have hsub : (s.entries d).Sublist (t.arena.links i) := by
    rw [Arena.links_of_payload? hd]
    exact List.drop_sublist _ _
  have hfilter := hsub.filter (·.isPresent)
  rw [List.filter_eq_self.2 (howned.entry_present i s d hd)] at hfilter
  exact (howned.parts_nodup i).sublist hfilter

theorem reportsOnce_namespaceDiagnostics {d : Syntax.Namespace} (kind : SyntaxKind)
    (hd : t.arena.payload? .namespaceDecl i = some d) :
    t.ReportsOnce (t.Marks i) (t.namespaceDiagnostics i kind d) := by
  have hlinks := Arena.links_of_payload? hd
  have hname : d.name.isPresent = true := howned.named i .namespaceDecl d hd
  have hlists : (d.attributeLists ++ d.modifiers).Sublist (Shape.entries .namespaceDecl d) := by
    simp [Shape.links]
  have hentries (j : NodeIndex) (hj : j ∈ d.attributeLists ++ d.modifiers) :=
    mem_links_of_mem_entries howned hd (hlists.subset hj)
  have hapart := (List.nodup_append.1 ((nodup_entries howned hd).sublist hlists)).2.2
  unfold namespaceDiagnostics
  refine ((((reportsOnce_nameDiagnostics d.name (fun code => mem_placement_of_placementCode?)
    _ _).append (reportsOnce_reportAt _ _) ?_).append (reportsOnce_reportAt _ _) ?_).append
    (reportsOnce_reportAt _ _) ?_).mono ?_
  · rintro code place ⟨hcode, -⟩ ⟨rfl, -⟩
    revert hcode
    decide
  · rintro code place (⟨hcode, -⟩ | ⟨-, hattribute⟩) ⟨rfl, hmodifier⟩
    · revert hcode
      decide
    · exact hapart place (List.mem_of_mem_head? hattribute) place
        (List.mem_of_mem_head? hmodifier) rfl
  · rintro code place ((⟨hcode, -⟩ | ⟨hcode, -⟩) | ⟨hcode, -⟩) ⟨rfl, -⟩
    · revert hcode
      decide
    · cases hcode
    · cases hcode
  · rintro code place (((⟨hcode, rfl⟩ | ⟨rfl, hattribute⟩) | ⟨rfl, hmodifier⟩) | ⟨rfl, hkeyword⟩)
    · have hpart : code ∈ Code.ofParts := List.mem_append_left _ (List.mem_append_right _ hcode)
      exact marks_of_mem_links hpart (by simp [hlinks, Shape.links]) hname
    · obtain ⟨hlink, hpresent⟩ :=
        hentries place (List.mem_append_left _ (List.mem_of_mem_head? hattribute))
      exact marks_of_mem_links (by decide) hlink hpresent
    · obtain ⟨hlink, hpresent⟩ :=
        hentries place (List.mem_append_right _ (List.mem_of_mem_head? hmodifier))
      exact marks_of_mem_links (by decide) hlink hpresent
    · obtain ⟨hmem, hpresent⟩ := List.mem_filter.1 (List.mem_of_mem_head? hkeyword)
      obtain ⟨u, hu, hdirective⟩ := List.mem_filterMap.1 hmem
      obtain ⟨directive, hpayload, rfl⟩ := Option.map_eq_some_iff.1 hdirective
      refine ⟨?_, hpresent, by decide⟩
      rw [IsPlaceOf, if_pos rfl]
      refine ⟨u, by simp [hlinks, Shape.links, hu], ?_⟩
      simp [Arena.links_of_payload? hpayload, Shape.links]

theorem reportsOnce_modifiers {s : Shape} {d : s.Data} {tokens : NodeList} (kind : TypeKind)
    (hd : t.arena.payload? s i = some d) (htokens : tokens.Sublist (s.entries d)) :
    t.ReportsOnce (fun code place => code ∈ Code.ofModifiers ∧ t.Marks i code place)
      (t.modifierDiagnostics tokens kind) := by
  refine (reportsOnce_modifierDiagnostics ((nodup_entries howned hd).sublist htokens) kind).mono ?_
  rintro code place ⟨hcode, hplace⟩
  obtain ⟨hlink, hpresent⟩ := mem_links_of_mem_entries howned hd (htokens.subset hplace)
  have hpart : code ∈ Code.ofParts := List.mem_append_left _ (List.mem_append_left _ hcode)
  exact ⟨hcode, marks_of_mem_links hpart hlink hpresent⟩

theorem reportsOnce_typeDiagnostics {s : Shape} {d : s.Data} {clauses tokens : NodeList}
    (arity : UInt32) (kind : TypeKind) (hd : t.arena.payload? s i = some d)
    (hclauses : clauses ⊆ s.entries d) (htokens : tokens.Sublist (s.entries d)) :
    t.ReportsOnce (t.Marks i)
      (t.constraintDiagnostics arity clauses ++ t.modifierDiagnostics tokens kind) := by
  refine ((reportsOnce_constraintDiagnostics arity clauses).append
    (reportsOnce_modifiers howned kind hd htokens) ?_).mono ?_
  · rintro code place ⟨rfl, -⟩ ⟨hcode, -⟩
    revert hcode
    decide
  · rintro code place (⟨rfl, hplace⟩ | ⟨-, hmarks⟩)
    · obtain ⟨hlink, hpresent⟩ := mem_links_of_mem_entries howned hd (hclauses hplace)
      exact marks_of_mem_links (by decide) hlink hpresent
    · exact hmarks

end Nodes

section Builds
variable {b : Builder} {free : Multiset NodeIndex}

theorem reportsOnce_of_opens {i : NodeIndex} {o : Opened} (howned : b.tree.arena.Owned free)
    (ho : b.Opens i o) : b.tree.ReportsOnce (b.tree.Marks i) (b.reports i) := by
  cases ho with
  | ofNamespace hk hnamespace hd hlisted =>
    rw [Builder.reports_of_namespace (.ofNamespace hk hnamespace hd hlisted)]
    exact reportsOnce_namespaceDiagnostics howned _ hd
  | ofType hk hclass hkind hd hlisted =>
    rw [Builder.reports_of_type (.ofType hk hclass hkind hd hlisted)]
    exact reportsOnce_typeDiagnostics howned _ _ hd (fun j hj => by simp [Shape.links, hj])
      (by simp [Shape.links])
  | ofDelegate hk hd =>
    rw [Builder.reports_of_leaf (.ofDelegate hk hd)]
    exact reportsOnce_typeDiagnostics howned _ _ hd (fun j hj => by simp [Shape.links, hj])
      (by simp [Shape.links])
  | ofEnum hk hd =>
    rw [Builder.reports_of_leaf (.ofEnum hk hd)]
    exact (reportsOnce_modifiers howned _ hd (by simp [Shape.links])).mono fun _ _ h => h.2

end Builds

section Files
variable {t : SyntaxTree} {free : Multiset NodeIndex}

theorem marks_unique (howned : t.arena.Owned free) {i j : NodeIndex} {code : Code}
    {place : NodeIndex} (hi : t.Marks i code place) (hj : t.Marks j code place) : i = j := by
  obtain ⟨hi, hpresent, -⟩ := hi
  obtain ⟨hj, -, -⟩ := hj
  unfold IsPlaceOf at hi hj
  split at hi
  · obtain ⟨u, hu, hplace⟩ := hi
    rw [if_pos ‹_›] at hj
    obtain ⟨v, hv, hplace'⟩ := hj
    obtain rfl := howned.owner_unique u v place hpresent hplace hplace'
    refine howned.owner_unique i j u ?_ hu hv
    -- what has parts is a node
    cases hget : t.arena.get? u with
    | none =>
      rw [Arena.links_eq_nil_of_get? hget] at hplace
      cases hplace
    | some h => exact Arena.isPresent_of_get? (by rw [hget]; rfl)
  · rw [if_neg ‹_›] at hj
    exact howned.owner_unique i j place hpresent hi hj

theorem isPresent_of_mem_memberList (howned : t.arena.Owned free) {i j : NodeIndex}
    (hj : j ∈ t.memberList i) : j.isPresent = true := by
  have hlist : j ∈ (t.arena.members? i).getD [] := by
    unfold memberList at hj
    split at hj
    · cases hj
    · exact hj
  obtain ⟨members, hmembers, hmem⟩ : ∃ members, t.arena.members? i = some members ∧ j ∈ members := by
    cases hmembers : t.arena.members? i with
    | none =>
      rw [hmembers] at hlist
      cases hlist
    | some members => exact ⟨members, rfl, by simpa [hmembers] using hlist⟩
  unfold Arena.members? at hmembers
  split at hmembers
  · obtain ⟨d, hd, rfl⟩ := Option.map_eq_some_iff.1 hmembers
    exact howned.entry_present i .compilationUnit d hd j (by simp [Shape.links, hmem])
  · obtain ⟨d, hd, rfl⟩ := Option.map_eq_some_iff.1 hmembers
    exact howned.entry_present i .namespaceDecl d hd j (by simp [Shape.links, hmem])
  · obtain ⟨d, hd, rfl⟩ := Option.map_eq_some_iff.1 hmembers
    exact howned.entry_present i .typeDecl d hd j (by simp [Shape.links, hmem])
  · obtain ⟨d, hd, rfl⟩ := Option.map_eq_some_iff.1 hmembers
    exact howned.entry_present i .enumDecl d hd j (by simp [Shape.links, hmem])
  · cases hmembers

theorem membersDistinct_of_owned (howned : t.arena.Owned free) : t.MembersDistinct := by
  refine ⟨fun i _ => ?_, fun i j m _ _ hi hj => ?_⟩
  · have hfilter := (t.memberList_sublist_links i).filter (·.isPresent)
    rw [List.filter_eq_self.2 fun j hj => isPresent_of_mem_memberList howned hj] at hfilter
    exact (howned.parts_nodup i).sublist hfilter
  · exact howned.owner_unique i j m (isPresent_of_mem_memberList howned hi)
      ((t.memberList_sublist_links i).subset hi) ((t.memberList_sublist_links j).subset hj)

theorem reportsOnce_usingOrderDiagnostics (usings : NodeList) :
    t.ReportsOnce (fun code place => code ∈ [Code.globalUsingOutOfOrder] ∧
      place.isPresent = true ∧ t.IsMentioned place)
      (t.usingOrderDiagnostics (t.arena.usingDirectives usings)) := by
  unfold usingOrderDiagnostics
  dsimp only
  split
  · rename_i late hfind
    have hlate := List.dropWhile_sublist _ |>.subset (List.mem_of_find?_eq_some hfind)
    have hpresent : late.globalKeyword.isPresent = true := by simpa using List.find?_some hfind
    exact .single ⟨List.mem_singleton_self _, hpresent, isMentioned_of_usingDirective hlate⟩
  · exact .nil

theorem reportsOnce_programReports {s : Sources} (howned : t.arena.Owned free)
    (hs : t.sources = .ok s) :
    t.ReportsOnce (fun code place => code ∈ [Code.emptyProgram] ∧
      place.isPresent = true ∧ t.IsMentioned place) (t.programReports s.listed) := by
  unfold programReports
  split
  · exact .nil
  · rename_i first globals hfirst
    have hmem := first_mem_memberList hs hfirst
    split
    · exact .single ⟨List.mem_singleton_self _, isPresent_of_mem_memberList howned hmem, t.root,
        (t.memberList_sublist_links t.root).subset hmem⟩
    · exact .nil

theorem nodup_visits_of_owned (howned : t.arena.Owned free)
    (hroot : t.arena.kindOf? t.root = some .compilationUnit) {visits : NodeList}
    (hvisits : Walk.Preorder t.declaredMembers (t.declaredMembers t.root) visits) :
    visits.Nodup := by
  have hall := (membersDistinct_of_owned howned).nodup hroot (.cons hvisits .nil)
  rw [List.append_nil] at hall
  exact (List.nodup_cons.1 hall).2

/-- What is reported of the nodes that a build comes to. -/
theorem reportsOnce_visits (howned : t.arena.Owned free) {hints : AttributeHints}
    {visits : NodeList} (hnodup : visits.Nodup)
    (hopens : ∀ i ∈ visits, ∃ o, (⟨t, hints⟩ : Builder).Opens i o) :
    t.ReportsOnce (fun code place => code ∉ Code.ofFiles ∧ place.isPresent = true ∧
      t.IsMentioned place) (visits.flatMap (⟨t, hints⟩ : Builder).reports) := by
  have heach (i : NodeIndex) (hi : i ∈ visits) :
      t.ReportsOnce (t.Marks i) ((⟨t, hints⟩ : Builder).reports i) := by
    obtain ⟨o, ho⟩ := hopens i hi
    exact reportsOnce_of_opens howned ho
  refine (ReportsOnce.flatMap hnodup heach fun i _ j _ code place hi hj =>
    marks_unique howned hi hj).mono ?_
  rintro code place ⟨i, -, hplace, hpresent, hcode⟩
  exact ⟨hcode, hpresent, hplace.isMentioned⟩

/-- Where no part belongs to two nodes, and no two nodes have the same range, no problem is reported
twice. -/
theorem nodup_problems_of_owned (howned : t.arena.Owned free)
    (hspan : ∀ i j, (t.arena.get? i).isSome → (t.arena.get? j).isSome →
      t.spanOf i = t.spanOf j → i = j)
    {options : DeclarationOptions} {r : RootDeclaration} (hr : t.declare options = .ok r) :
    (r.allDiagnostics.map (·.problem)).Nodup := by
  obtain ⟨s, hs, rfl⟩ := declare_eq_ok hr
  obtain ⟨hints, visits, hvisits, hopens, hperm⟩ := allDiagnostics_perm hs options
  obtain ⟨-, -, hroot, -⟩ := sources_stages hs
  have hnodes := reportsOnce_visits howned (nodup_visits_of_owned howned hroot hvisits) hopens
  have hprogram : t.ReportsOnce (fun code place => code ∈ [Code.emptyProgram] ∧
      place.isPresent = true ∧ t.IsMentioned place)
      (if t.isScript then [] else t.programReports s.listed) := by
    split
    · exact .nil
    · exact reportsOnce_programReports howned hs
  have hall := (reportsOnce_usingOrderDiagnostics s.unit.usings).append
    (hnodes.append hprogram fun code place hnode hfile => hnode.1 ?_)
    fun code place horder hlater => ?_
  · refine (hperm.map _).nodup_iff.2 (hall.nodup ?_ hspan)
    have hnode (place : NodeIndex) (hpresent : place.isPresent = true)
        (hmentioned : t.IsMentioned place) : (t.arena.get? place).isSome := by
      obtain ⟨i, hi⟩ := hmentioned
      exact (howned.part_lt i place hi hpresent).1
    rintro code place (h | h | h)
    · exact hnode place h.2.1 h.2.2
    · exact hnode place h.2.1 h.2.2
    · exact hnode place h.2.1 h.2.2
  · rw [List.mem_singleton.1 hfile.1]
    decide
  · obtain rfl := List.mem_singleton.1 horder.1
    obtain hnode | hfile := hlater
    · exact hnode.1 (by decide)
    · exact absurd hfile.1 (by decide)

end Files

end SyntaxTree

namespace Draft

/-- No two nodes of a draft in order have the same range. -/
theorem Ordered.eq_of_span {draft : Draft} (h : draft.Ordered) {i j : NodeIndex} {hd hd' : Header}
    (hi : draft.arena.get? i = some hd) (hj : draft.arena.get? j = some hd')
    (hspan : hd.span = hd'.span) : i = j := by
  obtain hlt | heq | hlt := Nat.lt_trichotomy i.toNat j.toNat
  · have hstop := h.stop_lt i j hd hd' hi hj hlt
    rw [hspan] at hstop
    exact absurd hstop (Nat.lt_irrefl _)
  · rw [← Arena.ofNat_toNat i, ← Arena.ofNat_toNat j, heq]
  · have hstop := h.stop_lt j i hd' hd hj hi hlt
    rw [hspan] at hstop
    exact absurd hstop (Nat.lt_irrefl _)

/-- The tree of what calls have composed. -/
def treeOf (calls : List Call) (id : TreeId) (fileName : String) (options : ParseOptions)
    (root : NodeIndex) : SyntaxTree :=
  ⟨id, fileName, options, (ofCalls calls).arena, root⟩

/-- No problem is reported twice of a tree that calls have composed, be it an ordinary file or a
script: no two of its diagnostics have the same code and the same location. -/
theorem nodup_problems {calls : List Call} (h : Composes calls) (id : TreeId) (fileName : String)
    (options : ParseOptions) (root : NodeIndex) {declarationOptions : DeclarationOptions}
    {r : RootDeclaration}
    (hr : (treeOf calls id fileName options root).declare declarationOptions = .ok r) :
    (r.allDiagnostics.map fun d => (d.code, d.location)).Nodup := by
  obtain ⟨free, howned, hordered⟩ := h.composed
  refine SyntaxTree.nodup_problems_of_owned howned (fun i j hi hj hspan => ?_) hr
  obtain ⟨hd, hi⟩ := Option.isSome_iff_exists.1 hi
  obtain ⟨hd', hj⟩ := Option.isSome_iff_exists.1 hj
  simp only [SyntaxTree.spanOf, hi, hj, Option.map_some, Option.getD_some] at hspan
  exact hordered.eq_of_span hi hj hspan

/-- A class in a namespace, with `partial` twice and a constraint without a type parameter. -/
def sampleCalls : List Call := [
  .modifiers [.partialKeyword, .publicKeyword, .partialKeyword],
  .identifier "A",
  .constraintClause "T" "B",
  .typeWith .classDeclaration
    { modifiers := [.ofNat 0, .ofNat 1, .ofNat 2]
      identifier := .ofNat 3
      constraintClauses := [.ofNat 6] },
  .namespaceOf "N.M" [.ofNat 7],
  .compilationUnit { members := [.ofNat 11] }]

theorem sampleCalls_composes : Composes sampleCalls where
  allowed := by
    simp only [sampleCalls, List.forall_mem_cons]
    exact ⟨trivial, trivial, trivial, rfl, trivial, trivial, by simp⟩
  given := by decide +kernel
  once := by decide +kernel
  room := by
    unfold HasRoom
    decide +kernel

/-- The sample as a file of either sort. Its root is the node that the last call gave back. -/
def sampleTree (kind : SourceKind) : SyntaxTree :=
  treeOf sampleCalls ⟨0⟩ "sample.cs" { kind } (.ofNat 12)

theorem sampleTree_nodup_problems :
    (∃ r, (sampleTree .regular).declare {} = .ok r ∧ r.allDiagnostics.length = 3 ∧
      (r.allDiagnostics.map fun d => (d.code, d.location)).Nodup) ∧
    ∃ r, (sampleTree .script).declare {} = .ok r ∧ r.allDiagnostics.length = 3 ∧
      (r.allDiagnostics.map fun d => (d.code, d.location)).Nodup := by
  have hlength (kind : SourceKind) : ∃ r, (sampleTree kind).declare {} = .ok r ∧
      r.allDiagnostics.length = 3 := by
    have hsome : ((sampleTree kind).declare {}).toOption.map (·.allDiagnostics.length) =
        some 3 := by
      cases kind <;> decide +kernel
    cases hr : (sampleTree kind).declare {} with
    | error e =>
      rw [hr] at hsome
      cases hsome
    | ok r =>
      rw [hr] at hsome
      exact ⟨r, rfl, Option.some.inj hsome⟩
  obtain ⟨r, hr, hthree⟩ := hlength .regular
  obtain ⟨r', hr', hthree'⟩ := hlength .script
  exact ⟨⟨r, hr, hthree, nodup_problems sampleCalls_composes _ _ _ _ hr⟩,
    ⟨r', hr', hthree', nodup_problems sampleCalls_composes _ _ _ _ hr'⟩⟩

end Draft

end DeclTree
