import DeclTree.Proofs.Reports
/-!
What can be reported at all: which codes come with which arguments, and at which nodes. Everything is
reported at a part of the node that it is about, but for a `global` keyword in a namespace, which is a
part of a directive.
-/
namespace DeclTree

/-- The codes that are reported without arguments. -/
def Code.withoutArguments : List Code := [
  constraintOnNonGeneric, partialMisplaced, modifiersOnNamespace, aliasedName, genericName,
  globalUsingInNamespace, globalUsingOutOfOrder, emptyProgram, secondFileScopedNamespace,
  fileScopedAndNormalNamespace, fileScopedNamespaceNotFirst]

namespace SyntaxTree

/-- A diagnostic that can be reported of a tree, at one of the places that its code may have. -/
inductive Reportable (t : SyntaxTree) (place : Code → NodeIndex → Prop) : Diagnostic → Prop
  | plain {code : Code} {i : NodeIndex} : code ∈ Code.withoutArguments → place code i →
      Reportable t place ⟨code, t.location i, []⟩
  | duplicate {kind : SyntaxKind} {modifier : Modifier} {i : NodeIndex} :
      Modifier.ofKind? kind = some modifier → place Code.duplicateModifier i →
      Reportable t place ⟨Code.duplicateModifier, t.location i, [kind.keywordText?.getD ""]⟩
  | feature {f : Feature} {i : NodeIndex} : t.options.version.supports f = false →
      place Code.featureNotAvailable i →
      Reportable t place ⟨Code.featureNotAvailable, t.location i,
        [f.toText, t.options.version.toText, f.since.toText]⟩

variable {t : SyntaxTree} {place place' : Code → NodeIndex → Prop}

theorem Reportable.mono {d : Diagnostic} (h : t.Reportable place d)
    (hplace : ∀ code i, place code i → place' code i) : t.Reportable place' d := by
  cases h with
  | plain hcode hi => exact .plain hcode (hplace _ _ hi)
  | duplicate hkind hi => exact .duplicate hkind (hplace _ _ hi)
  | feature hf hi => exact .feature hf (hplace _ _ hi)

/-- Where a diagnostic with a code is reported of a node. -/
def IsPlaceOf (t : SyntaxTree) (i : NodeIndex) (code : Code) (place : NodeIndex) : Prop :=
  if code = Code.globalUsingInNamespace then ∃ u ∈ t.arena.links i, place ∈ t.arena.links u
  else place ∈ t.arena.links i

theorem isPlaceOf_of_mem {i p : NodeIndex} (hp : p ∈ t.arena.links i) :
    ∀ code ≠ Code.globalUsingInNamespace, t.IsPlaceOf i code p := by
  intro code hcode
  rwa [IsPlaceOf, if_neg hcode]

section Modifiers

theorem mem_modifierTokens {token : ModifierToken} {tokens : NodeList}
    (h : token ∈ ModifierToken.ofList t.arena tokens) :
    token.node ∈ tokens ∧ t.arena.kindOf? token.node = some token.kind ∧
      Modifier.ofKind? token.kind = some token.modifier := by
  induction tokens with
  | nil => cases h
  | cons i rest ih =>
    have hlater (h : token ∈ ModifierToken.ofList t.arena rest) :=
      (ih h).imp_left (List.mem_cons_of_mem i)
    rw [ModifierToken.ofList] at h
    split at h
    · split at h
      · obtain rfl | h := List.mem_cons.1 h
        · exact ⟨List.mem_cons_self, ‹_›, ‹_›⟩
        · exact hlater h
      · exact hlater h
    · exact hlater h

theorem reportable_of_mem_featureDiagnostics {f : Feature} {i : NodeIndex} {d : Diagnostic}
    (h : d ∈ t.featureDiagnostics f i) (hi : place Code.featureNotAvailable i) :
    t.Reportable place d := by
  unfold featureDiagnostics at h
  cases hf : t.options.version.supports f with
  | true => simp [hf] at h
  | false =>
    simp only [hf, if_neg Bool.false_ne_true] at h
    rw [List.mem_singleton.1 h]
    exact .feature hf hi

variable {token : ModifierToken} {seen : Modifiers} {repeated : Bool} {d : Diagnostic}

theorem reportable_of_mem_tokenDiagnostics (h : d ∈ t.tokenDiagnostics seen repeated token)
    (htoken : Modifier.ofKind? token.kind = some token.modifier)
    (hplace : ∀ code ≠ Code.globalUsingInNamespace, place code token.node) :
    t.Reportable place d := by
  unfold tokenDiagnostics at h
  obtain h | h := List.mem_append.1 h
  · obtain h | h := List.mem_append.1 h
    · split at h
      · split at h
        · exact reportable_of_mem_featureDiagnostics h (hplace _ (by decide))
        · cases h
      · split at h
        · exact reportable_of_mem_featureDiagnostics h (hplace _ (by decide))
        · cases h
      · cases h
    · split at h
      · rw [List.mem_singleton.1 h]
        exact .plain (by decide) (hplace _ (by decide))
      · cases h
  · split at h
    · rw [List.mem_singleton.1 h]
      exact .duplicate htoken (hplace _ (by decide))
    · cases h

theorem reportable_of_mem_listDiagnostics {tokens : List ModifierToken}
    (h : d ∈ t.listDiagnostics seen repeated tokens)
    (htokens : ∀ token ∈ tokens, Modifier.ofKind? token.kind = some token.modifier ∧
      ∀ code ≠ Code.globalUsingInNamespace, place code token.node) : t.Reportable place d := by
  induction tokens generalizing seen repeated with
  | nil => cases h
  | cons token rest ih =>
    obtain h | h := List.mem_append.1 h
    · obtain ⟨htoken, hplace⟩ := htokens token List.mem_cons_self
      exact reportable_of_mem_tokenDiagnostics h htoken hplace
    · exact ih h fun token hmem => htokens token (List.mem_cons_of_mem _ hmem)

variable {tokens : NodeList} (hplace : ∀ i ∈ tokens, ∀ code ≠ Code.globalUsingInNamespace, place code i)
include hplace

theorem reportable_of_mem_keywordDiagnostics {keyword : SyntaxKind} {f : Feature}
    (h : d ∈ t.keywordDiagnostics tokens keyword f) : t.Reportable place d := by
  unfold keywordDiagnostics at h
  split at h
  · exact reportable_of_mem_featureDiagnostics h 
      (hplace _ (List.mem_of_find?_eq_some ‹_›) _ (by decide))
  · cases h

theorem reportable_of_mem_modifierDiagnostics {kind : TypeKind}
    (h : d ∈ t.modifierDiagnostics tokens kind) : t.Reportable place d := by
  obtain h | h := List.mem_append.1 h
  · refine reportable_of_mem_listDiagnostics h fun token htoken => ?_
    obtain ⟨hnode, -, hkind⟩ := mem_modifierTokens htoken
    exact ⟨hkind, hplace _ hnode⟩
  · unfold kindDiagnostics at h
    split at h
    · exact reportable_of_mem_keywordDiagnostics hplace h
    · obtain h | h := List.mem_append.1 h
      · exact reportable_of_mem_keywordDiagnostics hplace h
      · exact reportable_of_mem_keywordDiagnostics hplace h
    · obtain h | h := List.mem_append.1 h
      · exact reportable_of_mem_keywordDiagnostics hplace h
      · exact reportable_of_mem_keywordDiagnostics hplace h
    · cases h

end Modifiers

theorem reportable_of_mem_constraintDiagnostics {arity : UInt32} {clauses : NodeList}
    {d : Diagnostic} (h : d ∈ t.constraintDiagnostics arity clauses)
    (hplace : ∀ i ∈ clauses, ∀ code ≠ Code.globalUsingInNamespace, place code i) : t.Reportable place d := by
  unfold constraintDiagnostics at h
  split at h
  · split at h
    · rw [List.mem_singleton.1 h]
      exact .plain (by decide) (hplace _ List.mem_cons_self _ (by decide))
    · cases h
  · cases h

theorem reportable_of_mem_reportAt {code : Code} {at? : Option NodeIndex} {d : Diagnostic}
    (h : d ∈ t.reportAt code at?) (hcode : code ∈ Code.withoutArguments)
    (hplace : ∀ i, at? = some i → place code i) : t.Reportable place d := by
  cases at? with
  | none => cases h
  | some i =>
    rw [List.mem_singleton.1 h]
    exact .plain hcode (hplace i rfl)

section Nodes
variable {i : NodeIndex} {r : Diagnostic}

theorem reportable_of_mem_namespaceDiagnostics {kind : SyntaxKind} {d : Syntax.Namespace}
    (hd : t.arena.payload? .namespaceDecl i = some d) (h : r ∈ t.namespaceDiagnostics i kind d) :
    t.Reportable (t.IsPlaceOf i) r := by
  have hlinks := Arena.links_of_payload? hd
  have hname : d.name ∈ t.arena.links i := by simp [hlinks, Shape.links]
  have hpart {list : NodeList} (hlist : ∀ p ∈ list, p ∈ t.arena.links i) (p : NodeIndex)
      (hp : list.head? = some p) : t.IsPlaceOf i Code.modifiersOnNamespace p :=
    isPlaceOf_of_mem (hlist p (List.mem_of_mem_head? hp)) _ (by decide)
  simp only [namespaceDiagnostics, List.mem_append] at h
  obtain ((((h | h) | h) | h) | h) | h := h
  · cases hcode : t.placementCode? i kind with
    | none => simp [hcode] at h
    | some code =>
      have hr : r = ⟨code, t.location d.name, []⟩ := by simpa [hcode] using h
      have hplacement : Code.placement.all (fun code =>
          code ∈ Code.withoutArguments ∧ code ≠ Code.globalUsingInNamespace) := by decide
      obtain ⟨hplain, hother⟩ := of_decide_eq_true
        (List.all_eq_true.1 hplacement code (mem_placement_of_placementCode? hcode))
      rw [hr]
      exact .plain hplain (isPlaceOf_of_mem hname _ hother)
  · split at h
    · rw [List.mem_singleton.1 h]
      exact .plain (by decide) (isPlaceOf_of_mem hname _ (by decide))
    · cases h
  · split at h
    · rw [List.mem_singleton.1 h]
      exact .plain (by decide) (isPlaceOf_of_mem hname _ (by decide))
    · cases h
  · exact reportable_of_mem_reportAt h (by decide) (hpart fun p hp => by simp [hlinks, Shape.links, hp])
  · exact reportable_of_mem_reportAt h (by decide) (hpart fun p hp => by simp [hlinks, Shape.links, hp])
  · refine reportable_of_mem_reportAt h (by decide) fun p hp => ?_
    rw [IsPlaceOf, if_pos rfl]
    have hmem := (List.mem_filter.1 (List.mem_of_mem_head? hp)).1
    obtain ⟨u, hu, hkeyword⟩ := List.mem_filterMap.1 hmem
    obtain ⟨directive, hdirective, rfl⟩ := Option.map_eq_some_iff.1 hkeyword
    refine ⟨u, by simp [hlinks, Shape.links, hu], ?_⟩
    simp [Arena.links_of_payload? hdirective, Shape.links]

theorem reportable_of_opens {b : Builder} {o : Opened} (ho : b.Opens i o) (h : r ∈ b.reports i) :
    b.tree.Reportable (b.tree.IsPlaceOf i) r := by
  cases ho with
  | ofNamespace hk hnamespace hd hlisted =>
    rw [Builder.reports_of_namespace (.ofNamespace hk hnamespace hd hlisted)] at h
    exact reportable_of_mem_namespaceDiagnostics hd h
  | ofType hk hclass hkind hd hlisted =>
    rw [Builder.reports_of_type (.ofType hk hclass hkind hd hlisted)] at h
    have hlinks := Arena.links_of_payload? hd
    obtain h | h := List.mem_append.1 h
    · exact reportable_of_mem_constraintDiagnostics h fun p hp =>
        isPlaceOf_of_mem (by simp [hlinks, Shape.links, hp])
    · refine reportable_of_mem_modifierDiagnostics (fun p hp => isPlaceOf_of_mem ?_) h
      simp [hlinks, Shape.links, hp]
  | ofDelegate hk hd =>
    rw [Builder.reports_of_leaf (.ofDelegate hk hd)] at h
    have hlinks := Arena.links_of_payload? hd
    obtain h | h := List.mem_append.1 h
    · exact reportable_of_mem_constraintDiagnostics h fun p hp =>
        isPlaceOf_of_mem (by simp [hlinks, Shape.links, hp])
    · refine reportable_of_mem_modifierDiagnostics (fun p hp => isPlaceOf_of_mem ?_) h
      simp [hlinks, Shape.links, hp]
  | ofEnum hk hd =>
    rw [Builder.reports_of_leaf (.ofEnum hk hd)] at h
    refine reportable_of_mem_modifierDiagnostics (fun p hp => isPlaceOf_of_mem ?_) h
    simp [Arena.links_of_payload? hd, Shape.links, hp]

end Nodes

section Files
variable {s : Sources} {d : Diagnostic}

/-- An index that some node links to, whether or not it names a node. -/
def IsMentioned (t : SyntaxTree) (i : NodeIndex) : Prop := ∃ j, i ∈ t.arena.links j

theorem IsPlaceOf.isMentioned {i p : NodeIndex} {code : Code} (h : t.IsPlaceOf i code p) :
    t.IsMentioned p := by
  unfold IsPlaceOf at h
  split at h
  · obtain ⟨u, -, hp⟩ := h
    exact ⟨u, hp⟩
  · exact ⟨i, h⟩

theorem isMentioned_of_usingDirective {usings : NodeList} {late : Syntax.UsingDirective}
    (h : late ∈ t.arena.usingDirectives usings) : t.IsMentioned late.globalKeyword := by
  obtain ⟨u, -, hdirective⟩ := List.mem_filterMap.1 h
  exact ⟨u, by simp [Arena.links_of_payload? hdirective, Shape.links]⟩

theorem reportable_of_mem_usingOrderDiagnostics {usings : NodeList}
    (h : d ∈ t.usingOrderDiagnostics (t.arena.usingDirectives usings)) :
    t.Reportable (fun _ => t.IsMentioned) d := by
  unfold usingOrderDiagnostics at h
  dsimp only at h
  split at h
  · rw [List.mem_singleton.1 h]
    have hlate := List.dropWhile_sublist _ |>.subset (List.mem_of_find?_eq_some ‹_›)
    exact .plain (by decide) (isMentioned_of_usingDirective hlate)
  · cases h

/-- The statement at which a program is reported is a member of the unit. -/
theorem first_mem_memberList (hs : t.sources = .ok s) {first : NodeIndex} {globals : NodeList}
    (hfirst : ListedMember.select s.listed .statement = first :: globals) :
    first ∈ t.memberList t.root := by
  obtain ⟨-, -, -, -, hlisted, -⟩ := sources_stages hs
  rw [select_eq_filter hlisted] at hfirst
  exact List.mem_of_mem_filter (hfirst ▸ List.mem_cons_self)

theorem reportable_of_mem_programReports (hs : t.sources = .ok s)
    (h : d ∈ t.programReports s.listed) : t.Reportable (fun _ => t.IsMentioned) d := by
  unfold programReports at h
  split at h
  · cases h
  · rename_i first globals hfirst
    split at h
    · have hmem := first_mem_memberList hs hfirst
      rw [List.mem_singleton.1 h]
      exact .plain (by decide) ⟨t.root, (t.memberList_sublist_links t.root).subset hmem⟩
    · cases h

/-- Whatever is reported of a file can be reported of it, at an index that the file mentions. -/
theorem reportable_of_mem_allDiagnostics {options : DeclarationOptions} {r : RootDeclaration}
    (hr : t.declare options = .ok r) (h : d ∈ r.allDiagnostics) :
    t.Reportable (fun _ => t.IsMentioned) d := by
  obtain ⟨s, hs, rfl⟩ := declare_eq_ok hr
  obtain ⟨hints, visits, -, hopens, hperm⟩ := allDiagnostics_perm hs options
  obtain h | h := List.mem_append.1 (hperm.mem_iff.1 h)
  · exact reportable_of_mem_usingOrderDiagnostics h
  · obtain h | h := List.mem_append.1 h
    · obtain ⟨i, hi, h⟩ := List.mem_flatMap.1 h
      obtain ⟨o, ho⟩ := hopens i hi
      exact (reportable_of_opens ho h).mono fun _ _ => IsPlaceOf.isMentioned
    · split at h
      · cases h
      · exact reportable_of_mem_programReports hs h

end Files

end SyntaxTree

end DeclTree
