import DeclTree.Proofs.IncompleteMembers
import DeclTree.Proofs.Reports
/-!
The build of a tree without its incomplete members. It fails with the same fault, or it builds the
same declarations; only a file-scoped namespace may come first in its file now.
-/
namespace DeclTree

/-- What a namespace says of itself, but for the diagnostic that it does not come first. -/
def NamespaceHeader.withoutNotFirst (header : NamespaceHeader) : NamespaceHeader :=
  { header with
    diagnostics := header.diagnostics.filter (·.code != Code.fileScopedNamespaceNotFirst) }

/-- A header as it is, or without the diagnostic that the namespace does not come first. -/
def NamespaceHeader.Fades (header header' : NamespaceHeader) : Prop :=
  header' = header ∨ header' = header.withoutNotFirst

theorem NamespaceHeader.forall₂_fades_refl (headers : List NamespaceHeader) :
    List.Forall₂ Fades headers headers := by
  induction headers with
  | nil => exact .nil
  | cons header headers ih => exact .cons (.inl rfl) ih

theorem NamespaceHeader.forall₂_fades_reportFirst (headers : List NamespaceHeader)
    {ds ds' : List Diagnostic}
    (h : ds' = ds ∨ ds' = ds.filter (·.code != Code.fileScopedNamespaceNotFirst)) :
    List.Forall₂ Fades (reportFirst ds headers) (reportFirst ds' headers) := by
  cases headers with
  | nil => exact .nil
  | cons header headers =>
    refine .cons ?_ (forall₂_fades_refl headers)
    obtain rfl | rfl := h
    · exact .inl rfl
    · exact .inr rfl

/-- Two rows of the same declarations, where headers of namespaces may fade in the second one. -/
inductive Declaration.Fades : List Declaration → List Declaration → Prop
  | nil : Fades [] []
  | ofType (ty : TypeDeclaration) {row row' : List Declaration} :
      Fades row row' → Fades (.typeDecl ty :: row) (.typeDecl ty :: row')
  | ofNamespace {header header' : NamespaceHeader} {inner inner' row row' : List Declaration} :
      header.Fades header' → Fades inner inner' → Fades row row' →
      Fades (.namespaceDecl header inner :: row) (.namespaceDecl header' inner' :: row')

namespace Declaration.Fades
variable {row row' others others' : List Declaration}

theorem append (h : Fades row row') (hothers : Fades others others') :
    Fades (row ++ others) (row' ++ others') := by
  induction h with
  | nil => exact hothers
  | ofType ty _ ih => exact .ofType ty ih
  | ofNamespace hheader hinner _ _ ih => exact .ofNamespace hheader hinner ih

theorem ofTypes (types : List TypeDeclaration) :
    Fades (types.map .typeDecl) (types.map .typeDecl) := by
  induction types with
  | nil => exact .nil
  | cons ty types ih => exact .ofType ty ih

theorem nest {headers headers' : List NamespaceHeader}
    (hheaders : List.Forall₂ NamespaceHeader.Fades headers headers') (h : Fades row row') :
    Fades (Declaration.nest headers row) (Declaration.nest headers' row') := by
  induction hheaders with
  | nil => exact h
  | cons hheader _ ih => exact .ofNamespace hheader ih .nil

theorem filterMap_type? (h : Fades row row') :
    row'.filterMap (·.type?) = row.filterMap (·.type?) := by
  induction h with
  | nil => rfl
  | ofType ty _ ih => exact congrArg (ty :: ·) ih
  | ofNamespace _ _ _ _ ih => exact ih

theorem filter_isNone (h : Fades row row') :
    Fades (row.filter (·.type?.isNone)) (row'.filter (·.type?.isNone)) := by
  induction h with
  | nil => exact .nil
  | ofType ty _ ih => exact ih
  | ofNamespace hheader hinner _ _ ih => exact .ofNamespace hheader hinner ih

end Declaration.Fades

/-- What is wrong with a file-scoped namespace in a unit with the given members. -/
def Code.notFirst? (i : NodeIndex) (members : NodeList) : Option Code :=
  members.head?.bind fun first => if first = i then none else some Code.fileScopedNamespaceNotFirst

namespace SyntaxTree
variable {t : SyntaxTree} {i : NodeIndex}

section Namespaces
variable {kind : SyntaxKind}

/-- Leaving out incomplete members may bring a namespace to the front, but never takes one from
there. -/
theorem notFirst?_complete (hi : t.arena.kindOf? i ≠ some .incompleteMember) (members : NodeList) :
    Code.notFirst? i (t.arena.complete members) = Code.notFirst? i members ∨
      Code.notFirst? i members = some Code.fileScopedNamespaceNotFirst ∧
        Code.notFirst? i (t.arena.complete members) = none := by
  cases members with
  | nil => exact .inl rfl
  | cons first rest =>
    by_cases hfirst : first = i
    · rw [Arena.complete_cons_of_ne (by rwa [hfirst])]
      exact .inl rfl
    · have hlate : Code.notFirst? i (first :: rest) = some Code.fileScopedNamespaceNotFirst :=
        if_neg hfirst
      rw [hlate]
      cases t.arena.complete (first :: rest) with
      | nil => exact .inr ⟨rfl, rfl⟩
      | cons first' rest' =>
        by_cases hfirst' : first' = i
        · exact .inr ⟨rfl, if_pos hfirst'⟩
        · exact .inl (if_neg hfirst')

theorem placementCode?_withoutIncomplete (hk : t.arena.kindOf? i = some kind) :
    t.withoutIncomplete.placementCode? i kind = t.placementCode? i kind ∨
      t.placementCode? i kind = some Code.fileScopedNamespaceNotFirst ∧
        t.withoutIncomplete.placementCode? i kind = none := by
  have hparent : t.withoutIncomplete.arena.parentOf i = t.arena.parentOf i := rfl
  have hkind : t.withoutIncomplete.arena.kindOf? = t.arena.kindOf? := rfl
  simp only [placementCode?, hparent, hkind]
  split
  case isTrue hscoped =>
    split
    · exact .inl rfl
    · exact .inl rfl
    · rw [arena_withoutIncomplete, Arena.payload?_withoutIncomplete]
      cases t.arena.payload? .compilationUnit (t.arena.parentOf i) with
      | none => exact .inl rfl
      | some unit => exact notFirst?_complete (by simp [hk, hscoped]) unit.members
    · exact .inl rfl
  case isFalse => exact .inl rfl

theorem partDiagnostics_withoutIncomplete (d : Syntax.Namespace) :
    t.withoutIncomplete.partDiagnostics (Shape.mapMembers t.arena.complete .namespaceDecl d) =
      t.partDiagnostics d := by
  simp only [partDiagnostics, Shape.mapMembers, t.agrees_withoutIncomplete.arena.segments_eq]
  rfl

theorem filter_partDiagnostics (d : Syntax.Namespace) :
    (t.partDiagnostics d).filter (·.code != Code.fileScopedNamespaceNotFirst) =
      t.partDiagnostics d := by
  refine List.filter_eq_self.2 fun r hr => ?_
  have hcode := not_mem_placement_of_mem_partDiagnostics hr
  simp only [Code.placement, List.mem_cons, not_or] at hcode
  simpa using hcode.2.2.1

theorem namespaceDiagnostics_withoutIncomplete (hk : t.arena.kindOf? i = some kind)
    (d : Syntax.Namespace) :
    t.withoutIncomplete.namespaceDiagnostics i kind
        (Shape.mapMembers t.arena.complete .namespaceDecl d) = t.namespaceDiagnostics i kind d ∨
      t.withoutIncomplete.namespaceDiagnostics i kind
          (Shape.mapMembers t.arena.complete .namespaceDecl d) =
        (t.namespaceDiagnostics i kind d).filter (·.code != Code.fileScopedNamespaceNotFirst) := by
  rw [namespaceDiagnostics_eq_parts, namespaceDiagnostics_eq_parts,
    partDiagnostics_withoutIncomplete]
  obtain hsame | ⟨hfirst, hnone⟩ := placementCode?_withoutIncomplete hk
  · rw [hsame]
    exact .inl rfl
  · rw [hfirst, hnone, List.filter_append, filter_partDiagnostics]
    exact .inr rfl

theorem namespaceHeaders_fades (hk : t.arena.kindOf? i = some kind) (d : Syntax.Namespace) :
    List.Forall₂ NamespaceHeader.Fades (t.namespaceHeaders i kind d)
      (t.withoutIncomplete.namespaceHeaders i kind
        (Shape.mapMembers t.arena.complete .namespaceDecl d)) := by
  have hagrees := t.agrees_withoutIncomplete
  have houter : t.withoutIncomplete.outerHeader = t.outerHeader := funext hagrees.outerHeader_eq
  have hinner (segment : NodeIndex) : t.withoutIncomplete.innerHeader i
      (Shape.mapMembers t.arena.complete .namespaceDecl d) segment = t.innerHeader i d segment :=
    hagrees.innerHeader_eq i d (t.arena.complete d.members) segment
  have hsegments : t.withoutIncomplete.arena.segments
      (Shape.mapMembers t.arena.complete .namespaceDecl d).name = t.arena.segments d.name :=
    hagrees.arena.segments_eq d.name
  simp only [namespaceHeaders, houter, hinner, hsegments]
  exact NamespaceHeader.forall₂_fades_reportFirst _ (namespaceDiagnostics_withoutIncomplete hk d)

end Namespaces

end SyntaxTree

/-- What a member is found to be, with other members in the payload of a namespace. -/
def Opened.mapMembers (f : NodeList → NodeList) : Opened → Opened
  | leaf header => leaf header
  | ofNamespace pending members =>
    ofNamespace { pending with parts := Shape.mapMembers f .namespaceDecl pending.parts } members
  | ofType header members => ofType header members

namespace Builder
variable {t : SyntaxTree} {hints : AttributeHints} {i : NodeIndex} {o : Opened}

theorem Opens.withoutIncomplete (h : t.arena.Descends) (ho : (⟨t, hints⟩ : Builder).Opens i o) :
    (⟨t.withoutIncomplete, hints⟩ : Builder).Opens i (o.mapMembers t.arena.complete) := by
  have hdeclared := t.declaredMembers_withoutIncomplete i
  cases ho with
  | @ofNamespace k d listed hk hnamespace hd hlisted =>
    have hd' := Arena.payload?_withoutIncomplete_of_some hd
    have hlisted' := t.listMembers_withoutIncomplete k d.members
    rw [hlisted] at hlisted'
    have hopens := @ofNamespace ⟨t.withoutIncomplete, hints⟩ i k _ _ hk hnamespace hd' hlisted'
    simp only [Shape.mapMembers, SyntaxTree.wrappers_withoutIncomplete h, hdeclared] at hopens
    exact hopens
  | @ofType k kind d listed hk hclass hkind hd hlisted =>
    have hd' := Arena.payload?_withoutIncomplete_of_some hd
    have hlisted' := t.listMembers_withoutIncomplete k d.members
    rw [hlisted] at hlisted'
    have hopens := @ofType ⟨t.withoutIncomplete, hints⟩ i k kind _ _ hk hclass hkind hd' hlisted'
    simp only [SyntaxTree.classHeader_withoutIncomplete, hdeclared] at hopens
    exact hopens
  | ofDelegate hk hd =>
    rw [Opened.mapMembers, ← t.agrees_withoutIncomplete.delegateHeader_eq]
    exact .ofDelegate hk hd
  | ofEnum hk hd =>
    rw [Opened.mapMembers, ← t.agrees_withoutIncomplete.enumHeader_eq]
    exact .ofEnum hk hd

theorem openFault?_withoutIncomplete (i : NodeIndex) :
    (⟨t.withoutIncomplete, hints⟩ : Builder).openFault? i =
      (⟨t, hints⟩ : Builder).openFault? i := by
  rw [openFault?, SyntaxTree.nodeFault?_withoutIncomplete]
  rfl

theorem close_fades (ho : (⟨t, hints⟩ : Builder).Opens i o) {inner inner' : List Declaration}
    (hinner : Declaration.Fades inner inner') :
    Declaration.Fades [(⟨t, hints⟩ : Builder).close o inner]
      [(⟨t.withoutIncomplete, hints⟩ : Builder).close (o.mapMembers t.arena.complete) inner'] := by
  cases ho with
  | ofNamespace hk =>
    rw [close, closeNamespace, Opened.mapMembers, close, closeNamespace,
      ← SyntaxTree.nest_namespaceHeaders, ← SyntaxTree.nest_namespaceHeaders]
    exact .nest (SyntaxTree.namespaceHeaders_fades hk _) (hinner.append (.ofTypes _))
  | ofType =>
    rw [close, closeType, Opened.mapMembers, close, closeType, hinner.filterMap_type?]
    exact .ofTypes [_]
  | ofDelegate => exact .ofTypes [_]
  | ofEnum => exact .ofTypes [_]

theorem declarationsFrom_fades (h : t.arena.Descends) (depth : Nat) (members : NodeList) :
    Outcome.Alike Declaration.Fades ((⟨t, hints⟩ : Builder).declarationsFrom depth members)
      ((⟨t.withoutIncomplete, hints⟩ : Builder).declarationsFrom depth members) := by
  -- below a member by the depth, and along a row of members by the rest of the row
  induction depth generalizing members with
  | zero =>
    cases members with
    | nil => exact .ok .nil
    | cons i rest => exact .error _
  | succ depth ih =>
    induction members with
    | nil => exact .ok .nil
    | cons i rest ihRest =>
      rw [declarationsFrom_cons, declarationsFrom_cons]
      obtain ⟨o, ho, -⟩ | ⟨e, -, hfault⟩ := (⟨t, hints⟩ : Builder).opens_or_fault i
      · have hmembers : (o.mapMembers t.arena.complete).members = o.members := by
          cases o <;> rfl
        rw [declarationFrom_of_opens ho, declarationFrom_of_opens (ho.withoutIncomplete h), hmembers,
          Outcome.bind_assoc, Outcome.bind_assoc]
        refine (ih o.members).bind fun inner inner' hinner => ?_
        refine ihRest.bind fun later later' hlater => ?_
        exact .ok ((close_fades ho hinner).append hlater)
      · rw [declarationFrom_of_fault hfault,
          declarationFrom_of_fault ((openFault?_withoutIncomplete i).trans hfault)]
        exact .error e

end Builder

/-- What is built of a unit, and what is built of it where the incomplete members are left out. -/
structure Sources.Fades (complete : NodeList → NodeList) (s s' : Sources) : Prop where
  unit : s'.unit = Shape.mapMembers complete .compilationUnit s.unit
  listed : s'.listed = s.listed.filter (·.memberClass != .incomplete)
  built : Declaration.Fades s.built s'.built

namespace SyntaxTree
variable {t : SyntaxTree}

theorem sources_fades (h : t.arena.Descends) :
    Outcome.Alike (Sources.Fades t.arena.complete) t.sources t.withoutIncomplete.sources := by
  have hcheck : t.withoutIncomplete.checkRoot = t.checkRoot := rfl
  have hroot : t.withoutIncomplete.root = t.root := rfl
  have hhints : t.withoutIncomplete.fileHints = t.fileHints := by
    rw [fileHints, arena_withoutIncomplete, Arena.fileAliasHints?_withoutIncomplete h]
    rfl
  have hunit : t.withoutIncomplete.payload .compilationUnit .compilationUnit t.root =
      (t.payload .compilationUnit .compilationUnit t.root).map
        (Shape.mapMembers t.arena.complete .compilationUnit) := by
    rw [payload, arena_withoutIncomplete, Arena.payload?_withoutIncomplete, payload]
    cases t.arena.payload? .compilationUnit t.root <;> rfl
  rw [sources, sources, hcheck, hhints, hroot, hunit]
  refine (Outcome.Alike.refl t.checkRoot).bind fun _ _ _ => ?_
  refine (Outcome.Alike.refl t.fileHints).bind fun hints _ heq => ?_
  subst heq
  refine (Outcome.Alike.of_map _ _).bind fun unit _ heq => ?_
  subst heq
  have hlisted := t.listMembers_withoutIncomplete .compilationUnit unit.members
  simp only [Shape.mapMembers, hlisted]
  refine (Outcome.Alike.of_map _ _).bind fun listed _ heq => ?_
  subst heq
  have hselect : ListedMember.select (listed.filter (·.memberClass != .incomplete)) .declaration =
      ListedMember.select listed .declaration :=
    ListedMember.select_filter fun m hm => by rw [hm]; rfl
  rw [hselect, Builder.declarationsOf_eq_size, Builder.declarationsOf_eq_size]
  refine (Builder.declarationsFrom_fades h _ _).bind fun built built' hbuilt => ?_
  exact .ok ⟨rfl, rfl, hbuilt⟩

theorem rootChildren_fades (h : t.arena.Descends) (options : DeclarationOptions) {s s' : Sources}
    (hs : Sources.Fades t.arena.complete s s') :
    Declaration.Fades (t.rootChildren options s) (t.withoutIncomplete.rootChildren options s') := by
  have hscript : t.withoutIncomplete.isScript = t.isScript := rfl
  have hroot : t.withoutIncomplete.root = t.root := rfl
  have hmembers : s'.unit.members = t.arena.complete s.unit.members := by rw [hs.unit]; rfl
  rw [rootChildren, rootChildren, hscript, hroot, hmembers, hs.listed,
    wrappers_withoutIncomplete h, scriptClass_withoutIncomplete, hs.built.filterMap_type?]
  split
  · rw [← nest_scriptHeaders]
    exact hs.built.filter_isNone.append
      (.nest (NamespaceHeader.forall₂_fades_refl _) (.ofTypes [_]))
  · exact hs.built.append (.ofTypes _)

theorem rootDeclaration_withoutIncomplete (unit : Syntax.CompilationUnit) (row : List Declaration) :
    t.withoutIncomplete.rootDeclaration (Shape.mapMembers t.arena.complete .compilationUnit unit)
        row = t.rootDeclaration unit row := by
  rw [rootDeclaration, t.agrees_withoutIncomplete.arena.aliasHints_eq]
  rfl

/-- Without its incomplete members a file fails with the same fault, or else the same is built of it,
but that namespaces may no longer be reported not to come first. -/
theorem declare_withoutIncomplete (h : t.arena.Descends) (options : DeclarationOptions) :
    (∃ e, t.declare options = .error e ∧ t.withoutIncomplete.declare options = .error e) ∨
    ∃ r r', t.declare options = .ok r ∧ t.withoutIncomplete.declare options = .ok r' ∧
      r' = { r with children := r'.children } ∧ Declaration.Fades r.children r'.children := by
  rw [declare_eq, declare_eq]
  obtain ⟨e, herror, herror'⟩ | ⟨s, s', hs, hs', hfades⟩ := (sources_fades h).exists_results
  · rw [herror, herror']
    exact .inl ⟨e, rfl, rfl⟩
  · rw [hs, hs', Outcome.ok_bind, Outcome.ok_bind, hfades.unit, rootDeclaration_withoutIncomplete]
    exact .inr ⟨_, _, rfl, rfl, rfl, rootChildren_fades h options hfades⟩

/-- The file `int namespace A;`, in which `int` is an incomplete member. -/
def sampleIncomplete : SyntaxTree :=
  let a : Arena := {}
  let a := (a.add .identifier .predefinedType ⟨0, 3⟩ (⟨"int"⟩ : Syntax.Identifier)).2
  let a := (a.add .incompleteMember .incompleteMember ⟨0, 3⟩
    ({ typeNode := .ofNat 0 } : Syntax.IncompleteMember)).2
  let a := (a.add .identifier .identifierName ⟨14, 15⟩ (⟨"A"⟩ : Syntax.Identifier)).2
  let a := (a.add .namespaceDecl .fileScopedNamespaceDeclaration ⟨4, 16⟩
    ({ name := .ofNat 2 } : Syntax.Namespace)).2
  let a := (a.add .compilationUnit .compilationUnit ⟨0, 16⟩
    ({ members := [.ofNat 1, .ofNat 3] } : Syntax.CompilationUnit)).2
  ⟨⟨0⟩, "incomplete.cs", {}, a, .ofNat 4⟩

theorem sampleIncomplete_declare_withoutIncomplete :
    ∃ r r', sampleIncomplete.declare {} = .ok r ∧
      sampleIncomplete.withoutIncomplete.declare {} = .ok r' ∧
      Declaration.Fades r.children r'.children ∧
      r.allDiagnostics.map (·.code) = [Code.fileScopedNamespaceNotFirst] ∧
      r'.allDiagnostics.map (·.code) = [] := by
  have hdescends : sampleIncomplete.arena.Descends := by decide +kernel
  have hcodes : (sampleIncomplete.declare {}).toOption.map (·.allDiagnostics.map (·.code)) =
      some [Code.fileScopedNamespaceNotFirst] := by decide +kernel
  have hcodes' : (sampleIncomplete.withoutIncomplete.declare {}).toOption.map
      (·.allDiagnostics.map (·.code)) = some [] := by decide +kernel
  obtain ⟨e, herror, -⟩ | ⟨r, r', hr, hr', -, hfades⟩ := declare_withoutIncomplete hdescends {}
  · rw [herror] at hcodes
    cases hcodes
  · rw [hr] at hcodes
    rw [hr'] at hcodes'
    exact ⟨r, r', hr, hr', hfades, Option.some.inj hcodes, Option.some.inj hcodes'⟩

end SyntaxTree

end DeclTree
