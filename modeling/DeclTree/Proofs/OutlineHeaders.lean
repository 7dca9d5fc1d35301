import DeclTree.Proofs.Listing
import DeclTree.Proofs.Outline
/-!
What declarations say of themselves in two trees with the same outline: the same but for the indices
in their references. Only the placement and the segments of a namespace are taken for granted, since
these depend on more than the outline.
-/
namespace DeclTree

def ModifierToken.rename (p : NodeIndex → NodeIndex) (token : ModifierToken) : ModifierToken :=
  { token with node := p token.node }

def ListedMember.rename (p : NodeIndex → NodeIndex) (m : ListedMember) : ListedMember :=
  { m with node := p m.node }

theorem ListedMember.select_map_rename (p : NodeIndex → NodeIndex) (listed : List ListedMember)
    (c : MemberClass) : select (listed.map (·.rename p)) c = (select listed c).map p := by
  simp only [select, List.filter_map, List.map_map]
  rfl

theorem NamespaceHeader.map_rename_reportFirst (p : NodeIndex → NodeIndex)
    (diagnostics : List Diagnostic) (headers : List NamespaceHeader) :
    (reportFirst diagnostics headers).map (·.rename p) =
      reportFirst diagnostics (headers.map (·.rename p)) := by
  cases headers <;> rfl

namespace SyntaxTree

/-- Two trees of one file whose arenas have the same outline. -/
structure SameOutline (t : SyntaxTree) (p : NodeIndex → NodeIndex) (t' : SyntaxTree) : Prop where
  treeId : t'.id = t.id
  options : t'.options = t.options
  root : t'.root = p t.root
  arena : t.arena.SameOutline p t'.arena

namespace SameOutline
variable {t t' : SyntaxTree} {p : NodeIndex → NodeIndex} (h : t.SameOutline p t')
include h

section Places

theorem spanOf_eq (i : NodeIndex) : t'.spanOf (p i) = t.spanOf i := by
  rw [spanOf, h.arena.span?_eq, spanOf]

theorem location_eq (i : NodeIndex) : t'.location (p i) = t.location i := by
  rw [location, h.treeId, h.spanOf_eq, location]

theorem reference_eq (i : NodeIndex) : t'.reference (p i) = (t.reference i).rename p := by
  rw [reference, h.treeId, h.spanOf_eq]
  rfl

theorem isScript_eq : t'.isScript = t.isScript := by
  rw [isScript, h.options, isScript]

end Places

section Modifiers

theorem modifierTokens_eq (tokens : NodeList) : ModifierToken.ofList t'.arena (tokens.map p) =
    (ModifierToken.ofList t.arena tokens).map (·.rename p) := by
  induction tokens with
  | nil => rfl
  | cons i rest ih =>
    rw [List.map_cons, ModifierToken.ofList, h.arena.kindOf?_eq, ModifierToken.ofList]
    cases t.arena.kindOf? i with
    | none => exact ih
    | some kind =>
      cases hmodifier : Modifier.ofKind? kind with
      | none => simpa only [hmodifier] using ih
      | some modifier => simp only [hmodifier, ih, List.isEmpty_map, List.map_cons, ModifierToken.rename]

theorem featureDiagnostics_eq (f : Feature) (place : NodeIndex) :
    t'.featureDiagnostics f (p place) = t.featureDiagnostics f place := by
  simp only [featureDiagnostics, h.options, h.location_eq]

theorem tokenDiagnostics_eq (seen : Modifiers) (repeated : Bool) (token : ModifierToken) :
    t'.tokenDiagnostics seen repeated (token.rename p) =
      t.tokenDiagnostics seen repeated token := by
  simp only [tokenDiagnostics, ModifierToken.rename, h.featureDiagnostics_eq, h.location_eq]

theorem listDiagnostics_eq (seen : Modifiers) (repeated : Bool) (tokens : List ModifierToken) :
    t'.listDiagnostics seen repeated (tokens.map (·.rename p)) =
      t.listDiagnostics seen repeated tokens := by
  induction tokens generalizing seen repeated with
  | nil => rfl
  | cons token rest ih =>
    rw [List.map_cons, listDiagnostics, h.tokenDiagnostics_eq, ih, listDiagnostics]
    rfl

theorem keywordDiagnostics_eq (tokens : NodeList) (keyword : SyntaxKind) (f : Feature) :
    t'.keywordDiagnostics (tokens.map p) keyword f = t.keywordDiagnostics tokens keyword f := by
  rw [keywordDiagnostics, keywordDiagnostics, List.find?_map]
  simp only [Function.comp_def, h.arena.kindOf?_eq]
  cases tokens.find? fun i => t.arena.kindOf? i == some keyword with
  | none => rfl
  | some token => exact h.featureDiagnostics_eq f token

theorem kindDiagnostics_eq (tokens : NodeList) (kind : TypeKind) :
    t'.kindDiagnostics (tokens.map p) kind = t.kindDiagnostics tokens kind := by
  simp only [kindDiagnostics, h.keywordDiagnostics_eq]

theorem modifierDiagnostics_eq (tokens : NodeList) (kind : TypeKind) :
    t'.modifierDiagnostics (tokens.map p) kind = t.modifierDiagnostics tokens kind := by
  rw [modifierDiagnostics, h.modifierTokens_eq, h.listDiagnostics_eq, h.kindDiagnostics_eq,
    modifierDiagnostics]

theorem modifiersOf_eq (tokens : NodeList) :
    t'.modifiersOf (tokens.map p) = t.modifiersOf tokens := by
  rw [modifiersOf, h.modifierTokens_eq, List.map_map, modifiersOf]
  rfl

end Modifiers

section Types

theorem constraintDiagnostics_eq (arity : UInt32) (clauses : NodeList) :
    t'.constraintDiagnostics arity (clauses.map p) = t.constraintDiagnostics arity clauses := by
  cases clauses with
  | nil => rfl
  | cons first rest => simp only [List.map_cons, constraintDiagnostics, h.location_eq]

theorem declaredName_eq (identifier : NodeIndex) :
    t'.declaredName (p identifier) = t.declaredName identifier := by
  rw [declaredName, h.arena.identifierText?_eq, declaredName]

omit h in
theorem arity_map (typeParameters : Option NodeList) :
    Syntax.arity (typeParameters.map (·.map p)) = Syntax.arity typeParameters := by
  rw [Syntax.arity, getD_map_list, List.length_map, Syntax.arity]

theorem classHeader_eq (hints : AttributeHints) (i : NodeIndex) (kind : TypeKind)
    (d : Syntax.TypeDecl) : t'.classHeader hints (p i) kind (Shape.rename p .typeDecl d) =
      (t.classHeader hints i kind d).rename p := by
  simp only [classHeader, Shape.rename, TypeHeader.rename, h.reference_eq, h.location_eq,
    arity_map, h.constraintDiagnostics_eq, h.modifierDiagnostics_eq, h.declaredName_eq,
    h.modifiersOf_eq, h.arena.memberSummary_eq, h.arena.attributeHints_eq, List.isEmpty_map,
    Option.isSome_map]

theorem delegateHeader_eq (hints : AttributeHints) (i : NodeIndex) (d : Syntax.Delegate) :
    t'.delegateHeader hints (p i) (Shape.rename p .delegate d) =
      (t.delegateHeader hints i d).rename p := by
  simp only [delegateHeader, Shape.rename, TypeHeader.rename, h.reference_eq, h.location_eq,
    arity_map, h.constraintDiagnostics_eq, h.modifierDiagnostics_eq, h.declaredName_eq,
    h.modifiersOf_eq, h.arena.attributeHints_eq, List.isEmpty_map]

theorem enumHeader_eq (hints : AttributeHints) (i : NodeIndex) (d : Syntax.EnumDecl) :
    t'.enumHeader hints (p i) (Shape.rename p .enumDecl d) = (t.enumHeader hints i d).rename p := by
  simp only [enumHeader, Shape.rename, TypeHeader.rename, h.reference_eq, h.location_eq,
    h.modifierDiagnostics_eq, h.declaredName_eq, h.modifiersOf_eq, h.arena.enumSummary_eq,
    h.arena.attributeHints_eq, List.isEmpty_map, Option.isSome_map]

end Types

section Namespaces

theorem outerHeader_eq (s : NameSegment) :
    t'.outerHeader (s.rename p) = (t.outerHeader s).rename p := by
  simp only [outerHeader, NameSegment.rename, NamespaceHeader.rename, h.reference_eq,
    h.arena.simpleName_eq, h.location_eq, h.arena.segmentText_eq]

theorem innerHeader_eq (i : NodeIndex) (d : Syntax.Namespace) (segment : NodeIndex) :
    t'.innerHeader (p i) (Shape.rename p .namespaceDecl d) (p segment) =
      (t.innerHeader i d segment).rename p := by
  simp only [innerHeader, Shape.rename, NamespaceHeader.rename, h.reference_eq,
    h.arena.simpleName_eq, h.location_eq, h.arena.segmentText_eq, List.isEmpty_map]

theorem reportAt_eq (code : Code) (place : Option NodeIndex) :
    t'.reportAt code (place.map p) = t.reportAt code place := by
  cases place with
  | none => rfl
  | some i => simp only [reportAt, Option.map_some, h.location_eq]

theorem globalKeywords_eq (usings : NodeList) :
    ((usings.map p).filterMap fun i => (t'.arena.payload? .usingDirective i).map
      fun (u : Syntax.UsingDirective) => u.globalKeyword).filter (·.isPresent) =
        ((usings.filterMap fun i => (t.arena.payload? .usingDirective i).map
          fun (u : Syntax.UsingDirective) => u.globalKeyword).filter (·.isPresent)).map p := by
  have hkeyword (i : NodeIndex) := h.arena.map_payload? (s := .usingDirective) (by decide)
    (fun d => d.globalKeyword) (fun _ => rfl) i
  have hkeywords : ((usings.map p).filterMap fun i => (t'.arena.payload? .usingDirective i).map
      fun (u : Syntax.UsingDirective) => u.globalKeyword) =
        (usings.filterMap fun i => (t.arena.payload? .usingDirective i).map
          fun (u : Syntax.UsingDirective) => u.globalKeyword).map p := by
    rw [List.filterMap_map, List.map_filterMap]
    refine List.filterMap_congr fun i _ => ?_
    rw [Function.comp_apply, hkeyword, Option.map_map]
    rfl
  rw [hkeywords, List.filter_map]
  simp only [Function.comp_def, h.arena.isPresent]

variable {i : NodeIndex} {kind : SyntaxKind} {d : Syntax.Namespace}
  (hplacement : t'.placementCode? (p i) kind = t.placementCode? i kind)
  (hsegments : t'.arena.segments (p d.name) = (t.arena.segments d.name).map (·.rename p))
include hplacement hsegments

theorem namespaceDiagnostics_eq :
    t'.namespaceDiagnostics (p i) kind (Shape.rename p .namespaceDecl d) =
      t.namespaceDiagnostics i kind d := by
  simp only [namespaceDiagnostics, Shape.rename, hplacement, hsegments, h.location_eq,
    List.any_map, Function.comp_def, NameSegment.rename, h.arena.isGenericSegment_eq,
    h.arena.isAliasedSegment_eq, h.globalKeywords_eq, List.head?_map, h.reportAt_eq]

theorem namespaceHeaders_eq : t'.namespaceHeaders (p i) kind (Shape.rename p .namespaceDecl d) =
    (t.namespaceHeaders i kind d).map (·.rename p) := by
  have hname : (((t.arena.segments d.name).map (·.rename p)).getLast?.map (·.segment)).getD
      (p d.name) = p (((t.arena.segments d.name).getLast?.map (·.segment)).getD d.name) := by
    rw [List.getLast?_map]
    cases (t.arena.segments d.name).getLast? <;> rfl
  have hinner := h.innerHeader_eq i d
    (((t.arena.segments d.name).getLast?.map (·.segment)).getD d.name)
  have houter : (t'.arena.segments (p d.name)).dropLast.map t'.outerHeader =
      ((t.arena.segments d.name).dropLast.map t.outerHeader).map (·.rename p) := by
    rw [hsegments, ← List.map_dropLast, List.map_map, List.map_map]
    exact List.map_congr_left fun s _ => h.outerHeader_eq s
  rw [namespaceHeaders, namespaceHeaders, NamespaceHeader.map_rename_reportFirst, List.map_append,
    h.namespaceDiagnostics_eq hplacement hsegments, ← houter, List.map_singleton, ← hinner, ← hname,
    ← hsegments]
  rfl

end Namespaces

section Members

theorem classify_follows (container : SyntaxKind) (i : NodeIndex) :
    Outcome.Follows (Fault.rename p) (ListedMember.rename p) True (t.classify container i)
      (t'.classify container (p i)) := by
  unfold classify memberHeader
  cases hget : t.arena.get? i with
  | none =>
    rw [h.arena.get?_eq_none hget, h.treeId]
    exact .error _
  | some hd =>
    obtain ⟨hd', hget', htraits⟩ := h.arena.get?_eq_some hget
    obtain ⟨hkind, -, hspan⟩ : hd'.kind = hd.kind ∧ hd'.flags = hd.flags ∧ hd'.span = hd.span := by
      simpa [Header.traits] using htraits
    rw [hget', Outcome.ok_bind, Outcome.ok_bind, hkind, hspan, h.treeId]
    cases hd.kind.memberClass? with
    | none => exact .error _
    | some c => exact .refl _

theorem listMembers_follows (container : SyntaxKind) (members : NodeList) :
    Outcome.Follows (Fault.rename p) (List.map (ListedMember.rename p)) True
      (t.listMembers container members) (t'.listMembers container (members.map p)) :=
  Outcome.Follows.mapM fun i _ => h.classify_follows container i

theorem payload_follows {s : Shape} (hs : s ≠ .composite) (hbody : ∀ d, s.withoutBody d = d)
    (kind : SyntaxKind) (i : NodeIndex) :
    Outcome.Follows (Fault.rename p) (s.rename p) True (t.payload s kind i)
      (t'.payload s kind (p i)) := by
  rw [payload, payload, h.arena.payload?_eq hs hbody, h.treeId]
  cases t.arena.payload? s i with
  | none => exact .error _
  | some d => exact .refl d

end Members

section MadeUp

theorem statementsOf_eq (globals : NodeList) :
    t'.statementsOf (globals.map p) = (t.statementsOf globals).map p := by
  have hstatement (i : NodeIndex) := h.arena.map_payload? (s := .globalStatement) (by decide)
    (fun d => d.statement) (fun _ => rfl) i
  simp only [statementsOf, List.filterMap_map, List.map_filterMap, Function.comp_def, hstatement,
    Option.map_map]
  rfl

/-- The program of two trees with the same outline differs in what its statements tell. -/
theorem simpleProgram_eq (unit first : NodeIndex) (globals : NodeList) :
    t'.simpleProgram (p unit) (p first) (globals.map p) =
      .mk { (t.simpleProgram unit first globals).header.rename p with
            facts := t'.programFacts ((t.statementsOf globals).map p) } [] := by
  have hempty (i : NodeIndex) : t'.arena.isEmptyStatement (p i) = t.arena.isEmptyStatement i := by
    rw [Arena.isEmptyStatement, h.arena.kindOf?_eq, Arena.isEmptyStatement]
  simp only [simpleProgram_eq_any, h.statementsOf_eq, h.location_eq, h.reference_eq, List.all_map,
    Function.comp_def, hempty, TypeDeclaration.header, TypeHeader.rename]

theorem implicitClass_eq (container : NodeIndex) (members : NodeList) (skipStatements : Bool) :
    t'.implicitClass (p container) (members.map p) skipStatements =
      (t.implicitClass container members skipStatements).mapHeaders (·.rename p) := by
  simp only [implicitClass, TypeDeclaration.mapHeaders_mk, h.reference_eq, h.location_eq,
    h.arena.memberSummary_eq, TypeHeader.rename, List.map_nil]

/-- What is made up for a container is the same, up to `f` and `g`, if this holds of its program. -/
theorem map_wrappers_eq {f g : TypeDeclaration → TypeDeclaration} (container : NodeIndex)
    (members : NodeList) (listed : List ListedMember) (acceptsStatements : Bool)
    (hprogram : ∀ first globals, acceptsStatements = true →
      ListedMember.select listed .statement = first :: globals →
      f (t'.simpleProgram (p container) (p first) ((first :: globals).map p)) =
        g (t.simpleProgram container first (first :: globals)))
    (himplicit : f ((t.implicitClass container members acceptsStatements).mapHeaders (·.rename p)) =
      g (t.implicitClass container members acceptsStatements)) :
    (t'.wrappers (p container) (members.map p) (listed.map (·.rename p)) acceptsStatements).map f =
      (t.wrappers container members listed acceptsStatements).map g := by
  have hsame (m : ListedMember) : (m.rename p).memberClass = m.memberClass := rfl
  unfold wrappers
  simp only [ListedMember.select_map_rename, List.any_map, Function.comp_def, hsame, List.map_append,
    h.implicitClass_eq]
  congr 1
  · cases acceptsStatements with
    | false => rfl
    | true =>
      cases hselect : ListedMember.select listed .statement with
      | nil => rfl
      | cons first globals => exact congrArg (fun x => [x]) (hprogram first globals rfl hselect)
  · split
    · exact congrArg (fun x => [x]) himplicit
    · rfl

/-- Nothing that is made up for a namespace depends on more than the outline. -/
theorem wrappers_eq_of_namespace (container : NodeIndex) (members : NodeList)
    (listed : List ListedMember) :
    t'.wrappers (p container) (members.map p) (listed.map (·.rename p)) false =
      (t.wrappers container members listed false).map (·.mapHeaders (·.rename p)) := by
  have hwrappers := h.map_wrappers_eq (f := fun ty => ty) (g := (·.mapHeaders (·.rename p)))
    container members listed false nofun rfl
  rwa [List.map_id'] at hwrappers

end MadeUp

end SameOutline

end SyntaxTree

end DeclTree
