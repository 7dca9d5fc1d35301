import DeclTree.Proofs.Assembly
import DeclTree.Proofs.OutlineHeaders
import DeclTree.Proofs.Settlement
/-!
The build of two trees with the same outline. Both fail alike, and where the headers of namespaces
correspond, both build the same declarations but for the indices in their references.
-/
namespace DeclTree

def OpenNamespace.rename (p : NodeIndex → NodeIndex) (pending : OpenNamespace) : OpenNamespace where
  node := p pending.node
  kind := pending.kind
  parts := Shape.rename p .namespaceDecl pending.parts
  wrappers := pending.wrappers.map (·.mapHeaders (·.rename p))

def Opened.rename (p : NodeIndex → NodeIndex) : Opened → Opened
  | leaf header => leaf (header.rename p)
  | ofNamespace pending members => ofNamespace (pending.rename p) (members.map p)
  | ofType header members => ofType (header.rename p) (members.map p)

theorem Opened.members_rename (p : NodeIndex → NodeIndex) (o : Opened) :
    (o.rename p).members = o.members.map p := by
  cases o <;> rfl

namespace SyntaxTree.SameOutline
variable {t t' : SyntaxTree} {p : NodeIndex → NodeIndex} {hints : AttributeHints}
  {i : NodeIndex}

/-- The headers of every namespace that a build comes to are, up to `g`, those of the other tree. -/
def HeadersAlike (t : SyntaxTree) (p : NodeIndex → NodeIndex) (t' : SyntaxTree)
    (g : NamespaceHeader → NamespaceHeader) : Prop :=
  ∀ i k d, t.Reached i → t.arena.kindOf? i = some k → k.isNamespace = true →
    t.arena.payload? .namespaceDecl i = some d →
    t'.namespaceHeaders (p i) k (Shape.rename p .namespaceDecl d) =
      (t.namespaceHeaders i k d).map g

section Close
variable {g : NamespaceHeader → NamespaceHeader}

theorem HeadersAlike.closeNamespace_eq (hheaders : HeadersAlike t p t' g) (hi : t.Reached i) {k : SyntaxKind}
    {d : Syntax.Namespace} (hk : t.arena.kindOf? i = some k) (hnamespace : k.isNamespace = true)
    (hd : t.arena.payload? .namespaceDecl i = some d) (wrappers : List TypeDeclaration)
    (inner : List Declaration) :
    (⟨t', hints⟩ : Builder).closeNamespace (OpenNamespace.rename p ⟨i, k, d, wrappers⟩)
        (inner.map (·.mapHeaders (·.rename p) g)) =
      ((⟨t, hints⟩ : Builder).closeNamespace ⟨i, k, d, wrappers⟩ inner).mapHeaders (·.rename p)
        g := by
  have hchain := t.nest_namespaceHeaders i k d (inner ++ wrappers.map Declaration.typeDecl)
  have hchain' := t'.nest_namespaceHeaders (p i) k (Shape.rename p .namespaceDecl d)
    ((inner ++ wrappers.map Declaration.typeDecl).map (Declaration.mapHeaders (·.rename p) g))
  rw [hheaders i k d hi hk hnamespace hd, ← Declaration.map_nest, hchain, List.map_singleton,
    List.map_append, Declaration.map_map_typeDecl] at hchain'
  exact (List.singleton_inj.1 hchain').symm

theorem HeadersAlike.close_eq (hheaders : HeadersAlike t p t' g) (hi : t.Reached i) {o : Opened}
    (ho : (⟨t, hints⟩ : Builder).Opens i o) (inner : List Declaration) :
    (⟨t', hints⟩ : Builder).close (o.rename p) (inner.map (·.mapHeaders (·.rename p) g)) =
      ((⟨t, hints⟩ : Builder).close o inner).mapHeaders (·.rename p) g := by
  cases ho with
  | ofNamespace hk hnamespace hd => exact hheaders.closeNamespace_eq hi hk hnamespace hd _ inner
  | ofType =>
    simp only [Opened.rename, Builder.close, Builder.closeType, Declaration.filterMap_type?_map,
      Declaration.mapHeaders_typeDecl, TypeDeclaration.mapHeaders_mk]
  | ofDelegate => rfl
  | ofEnum => rfl

end Close

variable (h : t.SameOutline p t')
include h

section Open
variable (hints i)

theorem openNamespace_follows (kind : SyntaxKind) :
    Outcome.Follows (Fault.rename p) (Opened.rename p) True
      ((⟨t, hints⟩ : Builder).openNamespace i kind)
      ((⟨t', hints⟩ : Builder).openNamespace (p i) kind) := by
  unfold Builder.openNamespace
  refine (h.payload_follows (s := .namespaceDecl) (by decide) (fun _ => rfl) kind i).then fun d _ => ?_
  refine (h.listMembers_follows kind d.members).then fun listed _ => .ok fun _ => ?_
  rw [ListedMember.select_map_rename]
  simp only [Opened.rename, OpenNamespace.rename, Opened.ofNamespace.injEq, OpenNamespace.mk.injEq,
    true_and, and_true]
  exact h.wrappers_eq_of_namespace i d.members listed

theorem openType_follows (kind : SyntaxKind) (typeKind : TypeKind) :
    Outcome.Follows (Fault.rename p) (Opened.rename p) True
      ((⟨t, hints⟩ : Builder).openType i kind typeKind)
      ((⟨t', hints⟩ : Builder).openType (p i) kind typeKind) := by
  unfold Builder.openType
  refine (h.payload_follows (s := .typeDecl) (by decide) (fun _ => rfl) kind i).then fun d _ => ?_
  refine (h.listMembers_follows kind d.members).then fun listed _ => .ok fun _ => ?_
  rw [ListedMember.select_map_rename, List.filter_map, h.classHeader_eq]
  simp only [Function.comp_def, h.arena.kindOf?_eq, Opened.rename]

theorem openDelegate_follows (kind : SyntaxKind) :
    Outcome.Follows (Fault.rename p) (Opened.rename p) True
      ((⟨t, hints⟩ : Builder).openDelegate i kind)
      ((⟨t', hints⟩ : Builder).openDelegate (p i) kind) := by
  unfold Builder.openDelegate
  refine (h.payload_follows (s := .delegate) (by decide) (fun _ => rfl) kind i).then fun d _ => ?_
  exact .ok fun _ => congrArg Opened.leaf (h.delegateHeader_eq hints i d)

theorem openEnum_follows (kind : SyntaxKind) :
    Outcome.Follows (Fault.rename p) (Opened.rename p) True
      ((⟨t, hints⟩ : Builder).openEnum i kind) ((⟨t', hints⟩ : Builder).openEnum (p i) kind) := by
  unfold Builder.openEnum
  refine (h.payload_follows (s := .enumDecl) (by decide) (fun _ => rfl) kind i).then fun d _ => ?_
  exact .ok fun _ => congrArg Opened.leaf (h.enumHeader_eq hints i d)

variable {i}

theorem openMember_follows {hd : Header} (hget : t.arena.get? i = some hd)
    (hdecl : hd.kind.isDeclaration = true) :
    Outcome.Follows (Fault.rename p) (Opened.rename p) True
      ((⟨t, hints⟩ : Builder).openMember i) ((⟨t', hints⟩ : Builder).openMember (p i)) := by
  obtain ⟨hd', hget', htraits⟩ := h.arena.get?_eq_some hget
  have hkind : hd'.kind = hd.kind := congrArg Prod.fst htraits
  obtain hk | hk | hk | hk := (SyntaxKind.isDeclaration_iff hd.kind).1 hdecl
  · rw [Builder.openMember_of_namespace (b := ⟨t, hints⟩) hget hk,
      Builder.openMember_of_namespace (b := ⟨t', hints⟩) hget' (hkind ▸ hk), hkind]
    exact h.openNamespace_follows hints i hd.kind
  · obtain ⟨typeKind, hof, hopen⟩ := Builder.openMember_of_class (b := ⟨t, hints⟩) hget hk
    obtain ⟨typeKind', hof', hopen'⟩ :=
      Builder.openMember_of_class (b := ⟨t', hints⟩) hget' (hkind ▸ hk)
    rw [hkind, hof] at hof'
    cases hof'
    rw [hopen, hopen', hkind]
    exact h.openType_follows hints i hd.kind typeKind
  · rw [Builder.openMember_of_delegate (b := ⟨t, hints⟩) hget hk,
      Builder.openMember_of_delegate (b := ⟨t', hints⟩) hget' (hkind ▸ hk), hkind]
    exact h.openDelegate_follows hints i hd.kind
  · rw [Builder.openMember_of_enum (b := ⟨t, hints⟩) hget hk,
      Builder.openMember_of_enum (b := ⟨t', hints⟩) hget' (hkind ▸ hk), hkind]
    exact h.openEnum_follows hints i hd.kind

end Open

section Recursion
variable {g : NamespaceHeader → NamespaceHeader}

theorem declarationFrom_follows (depth : Nat) (hi : t.Reached i) {hd : Header}
    (hget : t.arena.get? i = some hd) (hdecl : hd.kind.isDeclaration = true) :
    Outcome.Follows (Fault.rename p) (Declaration.mapHeaders (·.rename p) g)
      (HeadersAlike t p t' g) ((⟨t, hints⟩ : Builder).declarationFrom depth i)
      ((⟨t', hints⟩ : Builder).declarationFrom depth (p i)) := by
  induction depth generalizing i hd with
  | zero =>
    rw [Builder.declarationFrom, Builder.declarationFrom, h.treeId]
    exact .error _
  | succ depth ih =>
    have hopen := h.openMember_follows hints hget hdecl
    obtain ⟨o, ho, -⟩ | ⟨e, herror, hfault⟩ := (⟨t, hints⟩ : Builder).opens_or_fault i
    · rw [ho.openMember_eq] at hopen
      obtain ⟨o', ho', heq⟩ := hopen.exists_ok
      cases heq trivial
      rw [Builder.declarationFrom_of_opens ho,
        Builder.declarationFrom_of_opens (Builder.openMember_eq_ok_iff.1 ho'), Opened.members_rename]
      have hbelow : Outcome.Follows (Fault.rename p)
          (List.map (Declaration.mapHeaders (·.rename p) g)) (HeadersAlike t p t' g)
          ((⟨t, hints⟩ : Builder).declarationsFrom depth o.members)
          ((⟨t', hints⟩ : Builder).declarationsFrom depth (o.members.map p)) := by
        refine Outcome.Follows.mapM fun j hj => ?_
        rw [ho.members_eq] at hj
        obtain ⟨hd', hget', hdecl'⟩ := mem_declaredMembers hj
        exact ih (hi.step hj) hget' hdecl'
      refine hbelow.bind fun inner inner' hinner => .ok fun hheaders => ?_
      rw [hinner hheaders]
      exact hheaders.close_eq hi ho inner
    · rw [herror] at hopen
      rw [Builder.declarationFrom_of_fault hfault, Builder.declarationFrom, hopen.eq_error]
      exact .error e

theorem declarationsFrom_follows (hints : AttributeHints) (depth : Nat) (hi : t.Reached i) :
    Outcome.Follows (Fault.rename p) (List.map (Declaration.mapHeaders (·.rename p) g))
      (HeadersAlike t p t' g) ((⟨t, hints⟩ : Builder).declarationsFrom depth (t.declaredMembers i))
      ((⟨t', hints⟩ : Builder).declarationsFrom depth ((t.declaredMembers i).map p)) := by
  refine Outcome.Follows.mapM fun j hj => ?_
  obtain ⟨hd, hget, hdecl⟩ := mem_declaredMembers hj
  exact h.declarationFrom_follows depth (hi.step hj) hget hdecl

/-- The sizes of the arenas do not matter, since either one is enough for a recursion that ends. -/
theorem declarationsOf_follows (hi : t.Reached i) :
    Outcome.Follows (Fault.rename p) (List.map (Declaration.mapHeaders (·.rename p) g))
      (HeadersAlike t p t' g) ((⟨t, hints⟩ : Builder).declarationsOf (t.declaredMembers i))
      ((⟨t', hints⟩ : Builder).declarationsOf ((t.declaredMembers i).map p)) := by
  have hrename (e : Fault) : e.rename p = .endless t.id ↔ e = .endless t.id := by
    cases e <;> simp [Fault.rename]
  have hsize := h.declarationsFrom_follows (g := g) hints (t.arena.size + 1) hi
  have hsize' := h.declarationsFrom_follows (g := g) hints (t'.arena.size + 1) hi
  rw [Builder.declarationsOf_eq_size, Builder.declarationsOf_eq_size]
  by_cases hends : (⟨t', hints⟩ : Builder).declarationsFrom (t.arena.size + 1)
      ((t.declaredMembers i).map p) = .error (.endless t'.id)
  · have hendless := (hsize.eq_error_iff hrename).1 (h.treeId ▸ hends)
    have hendless' : (⟨t', hints⟩ : Builder).declarationsFrom (t'.arena.size + 1)
        ((t.declaredMembers i).map p) = .error (.endless t.id) := by
      refine (hsize'.eq_error_iff hrename).2 ?_
      by_contra hmore
      have hless := Builder.declarationsFrom_size (b := ⟨t, hints⟩) hmore
      rw [hendless] at hless
      exact hmore hless.symm
    rw [hendless, hendless']
    exact Outcome.Follows.error (r := Fault.rename p) (.endless t.id)
  · rw [Builder.declarationsFrom_size (b := ⟨t', hints⟩) hends]
    exact hsize

end Recursion

end SyntaxTree.SameOutline

/-- What is built of a unit, with other indices for its nodes, and with `g` for what its namespaces
say of themselves. -/
def Sources.rename (p : NodeIndex → NodeIndex) (g : NamespaceHeader → NamespaceHeader)
    (s : Sources) : Sources where
  unit := Shape.rename p .compilationUnit s.unit
  listed := s.listed.map (·.rename p)
  built := s.built.map (·.mapHeaders (·.rename p) g)

theorem Sources.rename_id (s : Sources) : s.rename (fun i => i) (·.rename fun i => i) = s := by
  have hlisted : s.listed.map (·.rename fun i => i) = s.listed := List.map_id' s.listed
  have hbuilt : s.built.map (·.mapHeaders (·.rename fun i => i) (·.rename fun i => i)) = s.built :=
    List.map_id'' Declaration.mapHeaders_id s.built
  rw [rename, Shape.rename_id, hlisted, hbuilt]

namespace SyntaxTree.SameOutline
variable {t t' : SyntaxTree} {p : NodeIndex → NodeIndex} (h : t.SameOutline p t')
  {g : NamespaceHeader → NamespaceHeader}
include h

theorem checkRoot_follows :
    Outcome.Follows (Fault.rename p) (fun u => u) True t.checkRoot t'.checkRoot := by
  unfold checkRoot
  rw [h.root, h.arena.kindOf?_eq, h.treeId]
  split
  · exact .refl ()
  · exact .error _

theorem fileHints_follows :
    Outcome.Follows (Fault.rename p) (fun hints => hints) True t.fileHints t'.fileHints := by
  unfold fileHints
  rw [h.root, h.arena.fileAliasHints?_eq, h.treeId]
  cases t.arena.fileAliasHints? t.root with
  | none => exact .error _
  | some hints => exact .refl hints

/-- Two trees with the same outline fail alike, or both build the same but for indices. -/
theorem sources_follows : Outcome.Follows (Fault.rename p) (Sources.rename p g)
    (HeadersAlike t p t' g) t.sources t'.sources := by
  unfold sources
  refine h.checkRoot_follows.then fun u hroot => h.fileHints_follows.then fun hints _ => ?_
  rw [h.root]
  refine (h.payload_follows (s := .compilationUnit) (by decide) (fun _ => rfl) _ t.root).then
    fun unit hunit => ?_
  refine (h.listMembers_follows _ unit.members).then fun listed hlisted => ?_
  have hk := kindOf?_of_checkRoot hroot
  have hd := payload_eq_ok hunit
  rw [← memberList_of_unit hd] at hlisted
  rw [ListedMember.select_map_rename, select_eq_declaredMembers hk rfl hlisted]
  refine (h.declarationsOf_follows (.refl t.root)).bind fun built built' hbuilt => .ok fun hheaders => ?_
  rw [hbuilt hheaders]
  rfl

section Root
variable (options : DeclarationOptions)

theorem scriptType_eq (members : NodeList) (inner : List TypeDeclaration) :
    t'.scriptType options (members.map p) (inner.map (·.mapHeaders (·.rename p))) =
      (t.scriptType options members inner).mapHeaders (·.rename p) := by
  rw [scriptType, scriptType, TypeDeclaration.mapHeaders_mk, h.root]
  simp only [h.reference_eq, h.location_eq, h.arena.memberSummary_eq, TypeHeader.rename]

theorem scriptClass_eq (hg : ∀ header ∈ t.scriptHeaders options, g header = header.rename p)
    (members : NodeList) (inner : List TypeDeclaration) :
    t'.scriptClass options (members.map p) (inner.map (·.mapHeaders (·.rename p))) =
      (t.scriptClass options members inner).mapHeaders (·.rename p) g := by
  have hheaders : t'.scriptHeaders options = (t.scriptHeaders options).map g := by
    rw [List.map_congr_left hg]
    simp only [scriptHeaders, List.map_map, h.root, h.reference_eq, h.location_eq]
    rfl
  have hchain := t.nest_scriptHeaders options members inner
  have hchain' := t'.nest_scriptHeaders options (members.map p)
    (inner.map (·.mapHeaders (·.rename p)))
  rw [hheaders, h.scriptType_eq, ← Declaration.mapHeaders_typeDecl (·.rename p) g,
    ← List.map_singleton, ← Declaration.map_nest, hchain, List.map_singleton] at hchain'
  exact (List.singleton_inj.1 hchain').symm

theorem isPresent_globalKeyword : ((fun (d : Syntax.UsingDirective) => d.globalKeyword.isPresent) ∘
    Shape.rename p .usingDirective) = fun d => d.globalKeyword.isPresent :=
  funext fun d => h.arena.isPresent d.globalKeyword

theorem usingOrderDiagnostics_eq (usings : List Syntax.UsingDirective) :
    t'.usingOrderDiagnostics (usings.map (Shape.rename p .usingDirective)) =
      t.usingOrderDiagnostics usings := by
  rw [usingOrderDiagnostics, usingOrderDiagnostics, List.dropWhile_map, List.find?_map,
    h.isPresent_globalKeyword]
  cases (usings.dropWhile fun d => d.globalKeyword.isPresent).find?
      fun d => d.globalKeyword.isPresent with
  | none => rfl
  | some late => simp only [Option.map_some, Shape.rename, h.location_eq]

theorem referencedFiles_eq (directives : NodeList) :
    t'.referencedFiles (directives.map p) = t.referencedFiles directives := by
  rw [referencedFiles, referencedFiles, List.filterMap_map]
  refine List.filterMap_congr fun i _ => ?_
  rw [Function.comp_apply, h.arena.payload?_eq (s := .referenceDirective) (by decide) fun _ => rfl,
    h.location_eq]
  cases hget : t.arena.get? i with
  | none =>
    rw [h.arena.get?_eq_none hget]
    rfl
  | some hd =>
    obtain ⟨hd', hget', htraits⟩ := h.arena.get?_eq_some hget
    have hflags : hd'.flags = hd.flags := congrArg (fun traits => traits.2.1) htraits
    rw [hget']
    cases t.arena.payload? .referenceDirective i <;> simp [Header.hasFlag, hflags, Shape.rename]

theorem rootDeclaration_eq (unit : Syntax.CompilationUnit) (row : List Declaration) :
    t'.rootDeclaration (Shape.rename p .compilationUnit unit) row =
      { t.rootDeclaration unit row with reference := (t.reference t.root).rename p } := by
  have hmissing : ((fun (d : Syntax.UsingDirective) => d.globalKeyword.isMissing) ∘
      Shape.rename p .usingDirective) = fun d => d.globalKeyword.isMissing :=
    funext fun d => h.arena.isMissing d.globalKeyword
  simp only [rootDeclaration_eq_any, Shape.rename, h.root, h.reference_eq, h.location_eq,
    h.arena.usingDirectives_eq, h.usingOrderDiagnostics_eq, List.any_map, h.isScript_eq,
    h.referencedFiles_eq, List.isEmpty_map, h.arena.aliasHints_eq]
  rw [h.isPresent_globalKeyword, hmissing]

end Root

end SyntaxTree.SameOutline

end DeclTree
