import DeclTree.Proofs.Placement
import DeclTree.Proofs.Renaming
import DeclTree.Proofs.Reportable
/-!
A file compiled against an older and against a newer version of the language. The newer version has
more features, so that it takes back some of what the older one reports as missing; nothing else
changes.
-/
namespace DeclTree

namespace Feature

/-- No two features have the same name. -/
theorem any_toText (f : Feature) (p : Feature → Bool) :
    (all.any fun g => g.toText == f.toText && p g) = p f := by
  cases f <;> simp [all, toText]

end Feature

/-- Whether a version lacks the feature of a name. -/
def LanguageVersion.lacks (v : LanguageVersion) (name : String) : Bool :=
  Feature.all.any fun f => f.toText == name && !v.supports f

theorem LanguageVersion.lacks_toText (v : LanguageVersion) (f : Feature) :
    v.lacks f.toText = !v.supports f :=
  f.any_toText fun f => !v.supports f

/-- From this version on there is every feature. -/
theorem LanguageVersion.supports_of_le {v : LanguageVersion} (h : .v11 ≤ v) (f : Feature) :
    v.supports f = true :=
  supports_mono h (by cases f <;> decide)

namespace Diagnostic

def isFeature (d : Diagnostic) : Bool := d.code == Code.featureNotAvailable

/-- Where a feature is missing, and what it is called. -/
def missing (d : Diagnostic) : Location × String := (d.location, d.args.headD "")

/-- What becomes of a diagnostic when the version is raised: it goes if the new version has the
feature, and else it names the new version. -/
def raiseTo (w : LanguageVersion) (d : Diagnostic) : Option Diagnostic :=
  if d.isFeature then
    if w.lacks d.missing.2 then some { d with args := d.args.set 1 w.toText } else none
  else some d

variable {v w : LanguageVersion} {d : Diagnostic}

theorem raiseTo_of_not_isFeature (h : d.isFeature = false) : d.raiseTo w = some d := by
  simp [raiseTo, h]

theorem raiseTo_of_not_lacks (h : d.isFeature = true) (hw : w.lacks d.missing.2 = false) :
    d.raiseTo w = none := by
  simp [raiseTo, h, hw]

theorem raiseTo_of_lacks (h : d.isFeature = true) (hw : w.lacks d.missing.2 = true) :
    ∃ d', d.raiseTo w = some d' ∧ d'.isFeature = true ∧ d'.missing = d.missing := by
  refine ⟨{ d with args := d.args.set 1 w.toText }, by simp [raiseTo, h, hw], h, ?_⟩
  cases hargs : d.args <;> simp [missing, hargs]

section Lists
variable (w : LanguageVersion) (ds : List Diagnostic)

/-- Nothing that a version does not decide on is touched. -/
theorem filter_raiseTo :
    (ds.filterMap (raiseTo w)).filter (!·.isFeature) = ds.filter (!·.isFeature) := by
  induction ds with
  | nil => rfl
  | cons d ds ih =>
    cases hd : d.isFeature with
    | false =>
      rw [List.filterMap_cons_some (raiseTo_of_not_isFeature hd), List.filter_cons, List.filter_cons,
        ih]
    | true =>
      rw [List.filter_cons_of_neg (by simp [hd]), ← ih]
      cases hlacks : w.lacks d.missing.2 with
      | false => rw [List.filterMap_cons_none (raiseTo_of_not_lacks hd hlacks)]
      | true =>
        obtain ⟨d', hraised, hd', -⟩ := raiseTo_of_lacks hd hlacks
        rw [List.filterMap_cons_some hraised, List.filter_cons_of_neg (by simp [hd'])]

/-- What is missing at the new version is what is missing at the old one and still not there. -/
theorem map_missing_raiseTo :
    ((ds.filterMap (raiseTo w)).filter (·.isFeature)).map missing =
      ((ds.filter (·.isFeature)).map missing).filter fun place => w.lacks place.2 := by
  induction ds with
  | nil => rfl
  | cons d ds ih =>
    cases hd : d.isFeature with
    | false =>
      have hno : ¬ d.isFeature = true := by simp [hd]
      rw [List.filterMap_cons_some (raiseTo_of_not_isFeature hd), List.filter_cons_of_neg hno,
        List.filter_cons_of_neg hno, ih]
    | true =>
      rw [List.filter_cons_of_pos hd, List.map_cons]
      cases hlacks : w.lacks d.missing.2 with
      | false =>
        rw [List.filterMap_cons_none (raiseTo_of_not_lacks hd hlacks),
          List.filter_cons_of_neg (by simp [hlacks]), ih]
      | true =>
        obtain ⟨d', hraised, hd', hmissing⟩ := raiseTo_of_lacks hd hlacks
        rw [List.filterMap_cons_some hraised, List.filter_cons_of_pos hd', List.map_cons, hmissing,
          ih]
        simp only [List.filter_cons, hlacks, if_pos]

end Lists

end Diagnostic

/-- What a type says of itself once the version is raised. -/
def TypeHeader.raiseTo (w : LanguageVersion) (header : TypeHeader) : TypeHeader :=
  { header with diagnostics := header.diagnostics.filterMap (Diagnostic.raiseTo w) }

namespace SyntaxTree

/-- The same file, compiled against a given version. -/
def withVersion (t : SyntaxTree) (v : LanguageVersion) : SyntaxTree :=
  { t with options := { t.options with version := v } }

section Headers
variable {t : SyntaxTree} {v w : LanguageVersion} (h : v ≤ w)
include h

theorem featureDiagnostics_raiseTo (f : Feature) (place : NodeIndex) :
    (t.withVersion w).featureDiagnostics f place =
      ((t.withVersion v).featureDiagnostics f place).filterMap (Diagnostic.raiseTo w) := by
  have hv : (t.withVersion v).options.version = v := rfl
  have hw : (t.withVersion w).options.version = w := rfl
  rw [featureDiagnostics, featureDiagnostics, hv, hw]
  cases hsupports : v.supports f with
  | true => simp [LanguageVersion.supports_mono h hsupports]
  | false =>
    have hlacks := w.lacks_toText f
    cases hfeature : w.supports f with
    | true =>
      rw [hfeature] at hlacks
      simp [Diagnostic.raiseTo, Diagnostic.isFeature, Diagnostic.missing, hlacks]
    | false =>
      rw [hfeature] at hlacks
      simp [Diagnostic.raiseTo, Diagnostic.isFeature, Diagnostic.missing, hlacks]
      rfl

theorem tokenDiagnostics_raiseTo (seen : Modifiers) (repeated : Bool) (token : ModifierToken) :
    (t.withVersion w).tokenDiagnostics seen repeated token =
      ((t.withVersion v).tokenDiagnostics seen repeated token).filterMap
        (Diagnostic.raiseTo w) := by
  unfold tokenDiagnostics
  dsimp only
  rw [List.filterMap_append, List.filterMap_append]
  congr 1
  · congr 1
    · split
      · split
        · exact featureDiagnostics_raiseTo h _ _
        · rfl
      · split
        · exact featureDiagnostics_raiseTo h _ _
        · rfl
      · rfl
    · split <;> rfl
  · split <;> rfl

theorem listDiagnostics_raiseTo (seen : Modifiers) (repeated : Bool)
    (tokens : List ModifierToken) :
    (t.withVersion w).listDiagnostics seen repeated tokens =
      ((t.withVersion v).listDiagnostics seen repeated tokens).filterMap
        (Diagnostic.raiseTo w) := by
  induction tokens generalizing seen repeated with
  | nil => rfl
  | cons token rest ih =>
    rw [listDiagnostics, listDiagnostics, List.filterMap_append, tokenDiagnostics_raiseTo h, ih]

theorem keywordDiagnostics_raiseTo (tokens : NodeList) (keyword : SyntaxKind) (f : Feature) :
    (t.withVersion w).keywordDiagnostics tokens keyword f =
      ((t.withVersion v).keywordDiagnostics tokens keyword f).filterMap
        (Diagnostic.raiseTo w) := by
  have harena : (t.withVersion w).arena = (t.withVersion v).arena := rfl
  rw [keywordDiagnostics, keywordDiagnostics, harena]
  split
  · exact featureDiagnostics_raiseTo h f _
  · rfl

theorem kindDiagnostics_raiseTo (tokens : NodeList) (kind : TypeKind) :
    (t.withVersion w).kindDiagnostics tokens kind =
      ((t.withVersion v).kindDiagnostics tokens kind).filterMap (Diagnostic.raiseTo w) := by
  unfold kindDiagnostics
  split <;> simp only [List.filterMap_append, keywordDiagnostics_raiseTo h, List.filterMap_nil]

theorem modifierDiagnostics_raiseTo (tokens : NodeList) (kind : TypeKind) :
    (t.withVersion w).modifierDiagnostics tokens kind =
      ((t.withVersion v).modifierDiagnostics tokens kind).filterMap (Diagnostic.raiseTo w) := by
  rw [modifierDiagnostics, modifierDiagnostics, List.filterMap_append, listDiagnostics_raiseTo h,
    kindDiagnostics_raiseTo h]
  rfl

omit h in
theorem constraintDiagnostics_raiseTo (v : LanguageVersion) (arity : UInt32) (clauses : NodeList) :
    (t.withVersion w).constraintDiagnostics arity clauses =
      ((t.withVersion v).constraintDiagnostics arity clauses).filterMap
        (Diagnostic.raiseTo w) := by
  unfold constraintDiagnostics
  split
  · split <;> rfl
  · rfl

theorem classHeader_raiseTo (hints : AttributeHints) (i : NodeIndex) (kind : TypeKind)
    (d : Syntax.TypeDecl) : (t.withVersion w).classHeader hints i kind d =
      ((t.withVersion v).classHeader hints i kind d).raiseTo w := by
  rw [classHeader, modifierDiagnostics_raiseTo h, constraintDiagnostics_raiseTo v,
    ← List.filterMap_append]
  rfl

theorem delegateHeader_raiseTo (hints : AttributeHints) (i : NodeIndex) (d : Syntax.Delegate) :
    (t.withVersion w).delegateHeader hints i d =
      ((t.withVersion v).delegateHeader hints i d).raiseTo w := by
  rw [delegateHeader, modifierDiagnostics_raiseTo h, constraintDiagnostics_raiseTo v,
    ← List.filterMap_append]
  rfl

theorem enumHeader_raiseTo (hints : AttributeHints) (i : NodeIndex) (d : Syntax.EnumDecl) :
    (t.withVersion w).enumHeader hints i d =
      ((t.withVersion v).enumHeader hints i d).raiseTo w := by
  rw [enumHeader, modifierDiagnostics_raiseTo h]
  rfl

end Headers

theorem wrappers_raiseTo (t : SyntaxTree) (w : LanguageVersion) (i : NodeIndex)
    (members : NodeList) (listed : List ListedMember) (acceptsStatements : Bool) :
    (t.wrappers i members listed acceptsStatements).map (·.mapHeaders (·.raiseTo w)) =
      t.wrappers i members listed acceptsStatements := by
  have hprogram (first : NodeIndex) (globals : NodeList) :
      (t.simpleProgram i first globals).mapHeaders (·.raiseTo w) =
        t.simpleProgram i first globals := by
    rw [simpleProgram_eq_any, TypeDeclaration.mapHeaders_mk, TypeHeader.raiseTo]
    dsimp only
    split <;> rfl
  have himplicit : (t.implicitClass i members acceptsStatements).mapHeaders (·.raiseTo w) =
      t.implicitClass i members acceptsStatements := rfl
  unfold wrappers
  dsimp only
  rw [List.map_append]
  congr 1
  · split
    · rw [List.map_singleton, hprogram]
    · rfl
  · split
    · rw [List.map_singleton, himplicit]
    · rfl

theorem scriptClass_raiseTo (t : SyntaxTree) (w : LanguageVersion) (options : DeclarationOptions)
    (members : NodeList) (inner : List TypeDeclaration) :
    (t.scriptClass options members inner).mapHeaders (·.raiseTo w) (fun header => header) =
      t.scriptClass options members (inner.map (·.mapHeaders (·.raiseTo w))) := by
  have hscript : (t.scriptType options members inner).mapHeaders (·.raiseTo w) =
      t.scriptType options members (inner.map (·.mapHeaders (·.raiseTo w))) := by
    rw [scriptType, TypeDeclaration.mapHeaders_mk]
    rfl
  have hchain := congrArg (List.map (Declaration.mapHeaders (·.raiseTo w) fun header => header))
    (t.nest_scriptHeaders options members inner)
  rw [Declaration.map_nest, List.map_singleton, Declaration.mapHeaders_typeDecl, hscript,
    List.map_id', nest_scriptHeaders, List.map_singleton] at hchain
  exact (List.singleton_inj.1 hchain).symm

end SyntaxTree

/-- What a member is found to be, with other headers. -/
def Opened.mapHeaders (f : TypeHeader → TypeHeader) : Opened → Opened
  | leaf header => leaf (f header)
  | ofNamespace pending members =>
    ofNamespace { pending with wrappers := pending.wrappers.map (·.mapHeaders f) } members
  | ofType header members => ofType (f header) members

namespace Builder
variable {t : SyntaxTree} {hints : AttributeHints} {v w : LanguageVersion} (h : v ≤ w)
  {i : NodeIndex}

theorem closeNamespace_raiseTo (pending : OpenNamespace) (inner : List Declaration) :
    (⟨t.withVersion w, hints⟩ : Builder).closeNamespace
        { pending with wrappers := pending.wrappers.map (·.mapHeaders (·.raiseTo w)) }
        (inner.map (·.mapHeaders (·.raiseTo w) fun header => header)) =
      ((⟨t.withVersion v, hints⟩ : Builder).closeNamespace pending inner).mapHeaders
        (·.raiseTo w) fun header => header := by
  have hchain := congrArg (List.map (Declaration.mapHeaders (·.raiseTo w) fun header => header))
    ((t.withVersion v).nest_namespaceHeaders pending.node pending.kind pending.parts
      (inner ++ pending.wrappers.map .typeDecl))
  rw [Declaration.map_nest, List.map_id', List.map_append, Declaration.map_map_typeDecl,
    SyntaxTree.nest_namespaceHeaders, List.map_singleton] at hchain
  exact List.singleton_inj.1 hchain

theorem close_raiseTo (o : Opened) (inner : List Declaration) :
    (⟨t.withVersion w, hints⟩ : Builder).close (o.mapHeaders (·.raiseTo w))
        (inner.map (·.mapHeaders (·.raiseTo w) fun header => header)) =
      ((⟨t.withVersion v, hints⟩ : Builder).close o inner).mapHeaders (·.raiseTo w)
        fun header => header := by
  cases o with
  | leaf header => rfl
  | ofNamespace pending members => exact closeNamespace_raiseTo pending inner
  | ofType header members =>
    simp only [Opened.mapHeaders, close, closeType, Declaration.filterMap_type?_map,
      Declaration.mapHeaders_typeDecl, TypeDeclaration.mapHeaders_mk]

include h in
theorem Opens.raiseTo {o : Opened} (ho : (⟨t.withVersion v, hints⟩ : Builder).Opens i o) :
    (⟨t.withVersion w, hints⟩ : Builder).Opens i (o.mapHeaders (·.raiseTo w)) := by
  cases ho with
  | ofNamespace hk hnamespace hd hlisted =>
    simp only [Opened.mapHeaders, SyntaxTree.wrappers_raiseTo]
    exact .ofNamespace hk hnamespace hd hlisted
  | ofType hk hclass hkind hd hlisted =>
    rw [Opened.mapHeaders, ← SyntaxTree.classHeader_raiseTo h]
    exact .ofType hk hclass hkind hd hlisted
  | ofDelegate hk hd =>
    rw [Opened.mapHeaders, ← SyntaxTree.delegateHeader_raiseTo h]
    exact .ofDelegate hk hd
  | ofEnum hk hd =>
    rw [Opened.mapHeaders, ← SyntaxTree.enumHeader_raiseTo h]
    exact .ofEnum hk hd

include h in
theorem declarationFrom_raiseTo (depth : Nat) (i : NodeIndex) :
    (⟨t.withVersion w, hints⟩ : Builder).declarationFrom depth i =
      ((⟨t.withVersion v, hints⟩ : Builder).declarationFrom depth i).map
        (·.mapHeaders (·.raiseTo w) fun header => header) := by
  induction depth generalizing i with
  | zero => rfl
  | succ depth ih =>
    obtain ⟨o, ho, -⟩ | ⟨e, -, hfault⟩ := (⟨t.withVersion v, hints⟩ : Builder).opens_or_fault i
    · have hmembers : (o.mapHeaders (·.raiseTo w)).members = o.members := by
        cases o <;> rfl
      rw [declarationFrom_of_opens ho, declarationFrom_of_opens (ho.raiseTo h), hmembers,
        declarationsFrom, declarationsFrom, Outcome.mapM_congr fun j _ => ih j, Outcome.mapM_map]
      cases o.members.mapM ((⟨t.withVersion v, hints⟩ : Builder).declarationFrom depth) with
      | error e => rfl
      | ok inner => exact congrArg Except.ok (close_raiseTo o inner)
    · have hfault' : (⟨t.withVersion w, hints⟩ : Builder).openFault? i = some e := hfault
      rw [declarationFrom_of_fault hfault, declarationFrom_of_fault hfault']
      rfl

include h in
theorem declarationsOf_raiseTo (members : NodeList) :
    (⟨t.withVersion w, hints⟩ : Builder).declarationsOf members =
      ((⟨t.withVersion v, hints⟩ : Builder).declarationsOf members).map
        (List.map (·.mapHeaders (·.raiseTo w) fun header => header)) := by
  rw [declarationsOf_eq_size, declarationsOf_eq_size, declarationsFrom, declarationsFrom,
    ← Outcome.mapM_map]
  exact Outcome.mapM_congr fun i _ => declarationFrom_raiseTo h _ i

end Builder

/-- What is built of a unit once the version is raised. -/
def Sources.raiseTo (w : LanguageVersion) (s : Sources) : Sources :=
  { s with built := s.built.map (·.mapHeaders (·.raiseTo w) fun header => header) }

/-- The declarations of a file once the version is raised. -/
def RootDeclaration.raiseTo (w : LanguageVersion) (r : RootDeclaration) : RootDeclaration :=
  { r with children := r.children.map (·.mapHeaders (·.raiseTo w) fun header => header) }

/-- What a type says of itself, but for missing features. -/
def TypeHeader.withoutFeatures (header : TypeHeader) : TypeHeader :=
  { header with diagnostics := header.diagnostics.filter (!·.isFeature) }

/-- What a namespace says of itself, but for missing features. -/
def NamespaceHeader.withoutFeatures (header : NamespaceHeader) : NamespaceHeader :=
  { header with diagnostics := header.diagnostics.filter (!·.isFeature) }

/-- The declarations of a file without what is reported of missing features. -/
def RootDeclaration.withoutFeatures (r : RootDeclaration) : RootDeclaration :=
  { r with
    diagnostics := r.diagnostics.filter (!·.isFeature)
    children := r.children.map (·.mapHeaders (·.withoutFeatures) (·.withoutFeatures)) }

theorem RootDeclaration.withoutFeatures_raiseTo (w : LanguageVersion) (r : RootDeclaration) :
    (r.raiseTo w).withoutFeatures = r.withoutFeatures := by
  have hheader (header : TypeHeader) :
      (header.raiseTo w).withoutFeatures = header.withoutFeatures := by
    rw [TypeHeader.withoutFeatures, TypeHeader.raiseTo, Diagnostic.filter_raiseTo]
    rfl
  rw [withoutFeatures, raiseTo, List.map_map]
  simp only [Function.comp_def, Declaration.mapHeaders_mapHeaders, hheader]
  rfl

/-- The features that a type has but for the version, in the order in which they are reported. -/
def TypeHeader.missingFeatures (header : TypeHeader) : List (Location × String) :=
  (header.diagnostics.filter (·.isFeature)).map (·.missing)

theorem TypeHeader.missingFeatures_raiseTo (w : LanguageVersion) (header : TypeHeader) :
    (header.raiseTo w).missingFeatures =
      header.missingFeatures.filter fun place => w.lacks place.2 :=
  Diagnostic.map_missing_raiseTo w header.diagnostics

theorem RootDeclaration.types_raiseTo (w : LanguageVersion) (r : RootDeclaration) :
    (r.raiseTo w).types = r.types.map (·.mapHeaders (·.raiseTo w)) := by
  rw [types_eq, types_eq, raiseTo, Declaration.types_map_mapHeaders]

namespace SyntaxTree
variable {t : SyntaxTree} {v w : LanguageVersion}

theorem sources_raiseTo (h : v ≤ w) :
    (t.withVersion w).sources = (t.withVersion v).sources.map (·.raiseTo w) := by
  have hroot : (t.withVersion w).checkRoot = (t.withVersion v).checkRoot := rfl
  have hhints : (t.withVersion w).fileHints = (t.withVersion v).fileHints := rfl
  have hpayload : (t.withVersion w).payload = (t.withVersion v).payload := rfl
  have hlist : (t.withVersion w).listMembers = (t.withVersion v).listMembers := rfl
  have hunit : (t.withVersion w).root = (t.withVersion v).root := rfl
  unfold sources
  rw [hroot, hhints, hpayload, hlist, hunit]
  cases (t.withVersion v).checkRoot with
  | error e => rfl
  | ok u =>
    cases (t.withVersion v).fileHints with
    | error e => rfl
    | ok hints =>
      cases hd : (t.withVersion v).payload .compilationUnit .compilationUnit (t.withVersion v).root with
      | error e => rfl
      | ok d =>
        simp only [Outcome.ok_bind, Builder.declarationsOf_raiseTo h]
        cases (t.withVersion v).listMembers .compilationUnit d.members with
        | error e => rfl
        | ok listed =>
          rw [Outcome.ok_bind, Outcome.ok_bind]
          cases (⟨t.withVersion v, hints⟩ : Builder).declarationsOf
            (ListedMember.select listed .declaration) <;> rfl

theorem rootChildren_raiseTo (options : DeclarationOptions) (s : Sources) :
    (t.withVersion w).rootChildren options (s.raiseTo w) =
      ((t.withVersion v).rootChildren options s).map
        (·.mapHeaders (·.raiseTo w) fun header => header) := by
  have hscript : (t.withVersion w).isScript = (t.withVersion v).isScript := rfl
  rw [rootChildren, rootChildren, hscript]
  split
  · rw [List.map_append, List.map_singleton, scriptClass_raiseTo, ← Declaration.filter_isNone_map,
      ← Declaration.filterMap_type?_map (·.raiseTo w) fun header => header]
    rfl
  · rw [List.map_append, Declaration.map_map_typeDecl, wrappers_raiseTo]
    rfl

theorem declare_raiseTo (h : v ≤ w) (options : DeclarationOptions) :
    (t.withVersion w).declare options =
      ((t.withVersion v).declare options).map (·.raiseTo w) := by
  rw [declare_eq, declare_eq, sources_raiseTo h]
  cases (t.withVersion v).sources with
  | error e => rfl
  | ok s =>
    have hchildren := rootChildren_raiseTo (t := t) (v := v) (w := w) options s
    exact congrArg Except.ok (congrArg ((t.withVersion w).rootDeclaration s.unit) hchildren)

/-- No feature is missing from the version on that has introduced the last of them. -/
theorem not_isFeature_of_le (h : .v11 ≤ w) {options : DeclarationOptions} {r : RootDeclaration}
    (hr : (t.withVersion w).declare options = .ok r) :
    ∀ d ∈ r.allDiagnostics, d.isFeature = false := by
  intro d hd
  cases reportable_of_mem_allDiagnostics hr hd with
  | plain hcode =>
    have hplain : Code.featureNotAvailable ∉ Code.withoutArguments := by decide
    exact beq_false_of_ne fun heq => hplain (heq ▸ hcode)
  | duplicate => rfl
  | feature hf =>
    have hall := LanguageVersion.supports_of_le h
    have hversion : (t.withVersion w).options.version = w := rfl
    rw [hversion, hall] at hf
    cases hf

/-- A higher version of the language fails with the same fault, or it takes back, type by type, what
it does not lack any more, and changes nothing else. -/
theorem declare_withVersion (t : SyntaxTree) (options : DeclarationOptions) (h : v ≤ w) :
    (∃ e, (t.withVersion v).declare options = .error e ∧
      (t.withVersion w).declare options = .error e) ∨
    ∃ r s, (t.withVersion v).declare options = .ok r ∧
      (t.withVersion w).declare options = .ok s ∧
      s.withoutFeatures = r.withoutFeatures ∧
      List.Forall₂ (fun ty ty' => ty'.header.missingFeatures =
        ty.header.missingFeatures.filter fun place => w.lacks place.2) r.types s.types ∧
      (.v11 ≤ w → ∀ d ∈ s.allDiagnostics, d.code ≠ Code.featureNotAvailable) := by
  have hraise := declare_raiseTo (t := t) h options
  cases hr : (t.withVersion v).declare options with
  | error e =>
    rw [hr] at hraise
    exact .inl ⟨e, rfl, hraise⟩
  | ok r =>
    rw [hr] at hraise
    refine .inr ⟨r, _, rfl, hraise, r.withoutFeatures_raiseTo w, ?_, fun hw d hd => ?_⟩
    · rw [RootDeclaration.types_raiseTo, List.forall₂_map_right_iff]
      refine List.forall₂_same.2 fun ty _ => ?_
      cases ty with
      | mk header inner =>
        rw [TypeDeclaration.mapHeaders_mk]
        exact header.missingFeatures_raiseTo w
    · simpa [Diagnostic.isFeature] using not_isFeature_of_le hw hraise d hd

/-- The file `file static partial class C {}`. -/
def sampleGated : SyntaxTree :=
  let a : Arena := {}
  let a := (a.addToken .fileKeyword ⟨0, 4⟩).2
  let a := (a.addToken .staticKeyword ⟨5, 11⟩).2
  let a := (a.addToken .partialKeyword ⟨12, 19⟩).2
  let a := (a.add .identifier .identifierToken ⟨26, 27⟩ (⟨"C"⟩ : Syntax.Identifier)).2
  let a := (a.add .typeDecl .classDeclaration ⟨0, 30⟩
    ({ modifiers := [.ofNat 0, .ofNat 1, .ofNat 2], identifier := .ofNat 3 } : Syntax.TypeDecl)).2
  let a := (a.add .compilationUnit .compilationUnit ⟨0, 30⟩
    ({ members := [.ofNat 4] } : Syntax.CompilationUnit)).2
  ⟨⟨0⟩, "gated.cs", {}, a, .ofNat 5⟩

example : ((sampleGated.withVersion .v2).declare {}).toOption.map
    (·.types.map (·.header.missingFeatures.map (·.2))) = some [["file types"]] := by
  decide +kernel

theorem sampleGated_declare_withVersion :
    LanguageVersion.v1 ≤ .v2 ∧ ∃ r s, (sampleGated.withVersion .v1).declare {} = .ok r ∧
      (sampleGated.withVersion .v2).declare {} = .ok s ∧
      s.withoutFeatures = r.withoutFeatures ∧
      List.Forall₂ (fun ty ty' => ty'.header.missingFeatures =
        ty.header.missingFeatures.filter fun place => LanguageVersion.v2.lacks place.2)
          r.types s.types := by
  have hle : LanguageVersion.v1 ≤ .v2 := by decide
  obtain ⟨e, herror, -⟩ | ⟨r, s, hr, hs, hsame, htypes, -⟩ := declare_withVersion sampleGated {} hle
  · obtain ⟨r, hr⟩ : ∃ r, (sampleGated.withVersion .v1).declare {} = .ok r :=
      Outcome.exists_eq_ok (by decide +kernel)
    rw [hr] at herror
    cases herror
  · exact ⟨hle, r, s, hr, hs, hsame, htypes⟩

end SyntaxTree

end DeclTree
