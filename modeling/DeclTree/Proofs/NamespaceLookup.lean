import DeclTree.Proofs.ComposedNames
import DeclTree.Proofs.FileHints
import DeclTree.Proofs.Paths
import DeclTree.Proofs.Placement
/-!
Types in namespaces with composed names. The namespaces that such a declaration becomes have the
segments of the dotted text as names, and so the text, with a dot and the name of a type after it,
leads from the root to the type.
-/
namespace DeclTree

namespace SyntaxKind

theorem isDeclaration_of_shape? {k : SyntaxKind} {s : Shape} (h : k.shape? = some s)
    (hs : s = .typeDecl ∨ s = .delegate ∨ s = .enumDecl) : k.isDeclaration = true := by
  have hall : ∀ k ∈ all, k.shape? = some .typeDecl ∨ k.shape? = some .delegate ∨
      k.shape? = some .enumDecl → k.isDeclaration = true := by decide +kernel
  refine hall k (mem_all k) ?_
  obtain rfl | rfl | rfl := hs
  · exact .inl h
  · exact .inr (.inl h)
  · exact .inr (.inr h)

end SyntaxKind

namespace SyntaxTree
variable {t : SyntaxTree} {i : NodeIndex}

/-- The name that a node gives the type that it declares, if it declares one. -/
def typeName? (t : SyntaxTree) (i : NodeIndex) : Option String :=
  match (t.arena.kindOf? i).bind (·.shape?) with
  | some .typeDecl =>
    (t.arena.payload? .typeDecl i).map fun (d : Syntax.TypeDecl) => t.declaredName d.identifier
  | some .delegate =>
    (t.arena.payload? .delegate i).map fun (d : Syntax.Delegate) => t.declaredName d.identifier
  | some .enumDecl =>
    (t.arena.payload? .enumDecl i).map fun (d : Syntax.EnumDecl) => t.declaredName d.identifier
  | _ => none

theorem typeName?_of_type {d : Syntax.TypeDecl} (hd : t.arena.payload? .typeDecl i = some d) :
    t.typeName? i = some (t.declaredName d.identifier) := by
  simp [typeName?, Arena.shape?_of_payload? hd, hd]

theorem typeName?_of_delegate {d : Syntax.Delegate} (hd : t.arena.payload? .delegate i = some d) :
    t.typeName? i = some (t.declaredName d.identifier) := by
  simp [typeName?, Arena.shape?_of_payload? hd, hd]

theorem typeName?_of_enum {d : Syntax.EnumDecl} (hd : t.arena.payload? .enumDecl i = some d) :
    t.typeName? i = some (t.declaredName d.identifier) := by
  simp [typeName?, Arena.shape?_of_payload? hd, hd]

theorem typeName?_of_namespace {d : Syntax.Namespace}
    (hd : t.arena.payload? .namespaceDecl i = some d) : t.typeName? i = none := by
  simp [typeName?, Arena.shape?_of_payload? hd]

theorem exists_kind_of_typeName? {name : String} (h : t.typeName? i = some name) :
    ∃ k, t.arena.kindOf? i = some k ∧ k.isDeclaration = true := by
  unfold typeName? at h
  split at h
  case h_4 => cases h
  all_goals
    rename_i hshape
    obtain ⟨k, hk, hs⟩ := Option.bind_eq_some_iff.1 hshape
    exact ⟨k, hk, SyntaxKind.isDeclaration_of_shape? hs (by simp)⟩

theorem type?_namespaceChain (i : NodeIndex) (kind : SyntaxKind) (d : Syntax.Namespace)
    (inner : List Declaration) : (t.namespaceChain i kind d inner).type? = none := by
  simp only [namespaceChain]
  split <;> rfl

end SyntaxTree

namespace Builder
variable {b : Builder} {i : NodeIndex} {o : Opened} {name : String}

theorem Opens.type?_close (ho : b.Opens i o) (inner : List Declaration) :
    (b.close o inner).type?.map (·.header.name) = b.tree.typeName? i := by
  cases ho with
  | ofNamespace _ _ hd =>
    rw [SyntaxTree.typeName?_of_namespace hd, close, closeNamespace,
      SyntaxTree.type?_namespaceChain, Option.map_none]
  | ofType _ _ _ hd =>
    rw [SyntaxTree.typeName?_of_type hd]
    rfl
  | ofDelegate _ hd =>
    rw [SyntaxTree.typeName?_of_delegate hd]
    rfl
  | ofEnum _ hd =>
    rw [SyntaxTree.typeName?_of_enum hd]
    rfl

theorem Opens.reference_close (ho : b.Opens i o) {inner : List Declaration} {ty : TypeDeclaration}
    (hty : (b.close o inner).type? = some ty) : ty.header.reference = b.tree.reference i := by
  cases ho with
  | ofNamespace =>
    rw [close, closeNamespace, SyntaxTree.type?_namespaceChain] at hty
    cases hty
  | ofType | ofDelegate | ofEnum =>
    cases hty
    rfl

/-- The first type of some name among what a list of members becomes is that of the first member that
gives its type the name. -/
theorem exists_typeNamed? {depth : Nat} {earlier later : NodeList} {inner : List Declaration}
    (hinner : b.declarationsFrom depth (earlier ++ i :: later) = .ok inner)
    (hi : b.tree.typeName? i = some name) (hearlier : ∀ j ∈ earlier, b.tree.typeName? j ≠ some name)
    (others : List Declaration) :
    ∃ ty, Declaration.typeNamed? name (inner ++ others) = some ty ∧
      ty.header.reference = b.tree.reference i ∧ ty.header.name = name := by
  obtain ⟨before, d, after, hd, rfl, hbefore⟩ := Outcome.mapM_append_cons_eq_ok hinner
  obtain ⟨-, o, below, -, ho, -, rfl⟩ := exists_close_of_declarationFrom hd
  have hname := (ho.type?_close below).trans hi
  obtain ⟨ty, hty, hname⟩ := Option.map_eq_some_iff.1 hname
  have hnone : Declaration.typeNamed? name before = none := by
    refine Declaration.typeNamed?_eq_none fun e he => ?_
    obtain ⟨j, hj, he⟩ := hbefore e he
    obtain ⟨-, o', below', -, ho', -, rfl⟩ := exists_close_of_declarationFrom he
    rw [ho'.type?_close]
    exact hearlier j hj
  have hdecl : b.close o below = .typeDecl ty := by
    cases hclose : b.close o below with
    | namespaceDecl => simp [hclose, Declaration.type?] at hty
    | typeDecl => simpa [hclose, Declaration.type?] using hty
  refine ⟨ty, ?_, ho.reference_close hty, hname⟩
  rw [List.append_assoc, Declaration.typeNamed?_append, hnone, Option.none_or, List.cons_append,
    Declaration.typeNamed?_cons, hdecl]
  simp [Declaration.name, Declaration.type?, hname]

/-- A namespace declaration becomes the namespaces of its name around what its members become and the
types made up for it. -/
theorem exists_nest_of_declarationFrom {kind : SyntaxKind} {parts : Syntax.Namespace}
    (hk : b.tree.arena.kindOf? i = some kind)
    (hd : b.tree.arena.payload? .namespaceDecl i = some parts) {depth : Nat} {d : Declaration}
    (hbuilt : b.declarationFrom depth i = .ok d) : ∃ below inner madeUp,
      b.declarationsFrom below (b.tree.declaredMembers i) = .ok inner ∧ d.type? = none ∧
        [d] = Declaration.nest (b.tree.namespaceHeaders i kind parts) (inner ++ madeUp) := by
  obtain ⟨below, o, inner, -, ho, hinner, rfl⟩ := exists_close_of_declarationFrom hbuilt
  have hnone := (ho.type?_close inner).trans (SyntaxTree.typeName?_of_namespace hd)
  rw [Option.map_eq_none_iff] at hnone
  cases ho with
  | ofNamespace hk' _ hd' =>
    cases hk.symm.trans hk'
    cases hd.symm.trans hd'
    exact ⟨below, inner, _, hinner, hnone, (SyntaxTree.nest_namespaceHeaders _ _ _ _ _).symm⟩
  | ofType | ofDelegate | ofEnum => cases hnone

end Builder

namespace SyntaxTree
variable {t : SyntaxTree} {r : RootDeclaration} {i : NodeIndex} {kind : SyntaxKind}
  {dotted : String} {members : NodeList} {name : NodeIndex}

/-- Namespaces stay below the root, in a script too. -/
theorem mem_rootChildren {s : Sources} {d : Declaration} (hbuilt : d ∈ s.built)
    (hd : d.type? = none) (options : DeclarationOptions) : d ∈ t.rootChildren options s := by
  cases hscript : t.isScript with
  | false =>
    rw [rootChildren_ordinary hscript]
    exact List.mem_append_left _ hbuilt
  | true =>
    rw [rootChildren_scripted hscript]
    exact List.mem_append_left _ (List.mem_filter.2 ⟨hbuilt, by simp [hd]⟩)

/-- What a namespace declaration with a dotted name becomes: among the children of the root, a
namespace for each segment of the text, each in the one before it. The innermost one stands for the
declaration and holds what is declared within. -/
structure Unfolds (t : SyntaxTree) (r : RootDeclaration) (i : NodeIndex) (dotted : String)
    (members : NodeList) (before after : List Declaration) (outer : List NamespaceHeader)
    (innermost : NamespaceHeader) (inner : List Declaration) : Prop where
  children : r.children = before ++ Declaration.nest (outer ++ [innermost]) inner ++ after
  reference : innermost.reference = t.reference i
  joined : ".".intercalate ((outer ++ [innermost]).map (·.name)) = dotted
  plain : ∀ header ∈ outer ++ [innermost], '.' ∉ header.name.toList
  /-- Each type within is found, unless another child of the root has the first name of the text, or
  an earlier type within has the name of the type. -/
  found : (∀ d ∈ before ++ after, some d.name ≠ (Text.segments dotted).head?) →
    ∀ earlier member later typeName, members = earlier ++ member :: later →
      t.typeName? member = some typeName → '.' ∉ typeName.toList →
      (∀ j ∈ earlier, t.typeName? j ≠ some typeName) →
      ∃ ty, r.findType? (dotted ++ "." ++ typeName) = some ty ∧
        ty.header.reference = t.reference member ∧ ty.header.name = typeName

theorem findType?_nest {before after inner : List Declaration} {headers : List NamespaceHeader}
    {typeName : String} (hchildren : r.children = before ++ Declaration.nest headers inner ++ after)
    (hnames : headers.map (·.name) = Text.segments dotted) (hplain : '.' ∉ typeName.toList)
    (hother : ∀ d ∈ before ++ after, some d.name ≠ (Text.segments dotted).head?) :
    r.findType? (dotted ++ "." ++ typeName) = Declaration.typeNamed? typeName inner := by
  have hfound := Declaration.find?_nest_append headers inner (List.cons_ne_nil typeName [])
  rw [RootDeclaration.findType?, hchildren, Text.segments_append hplain]
  rw [hnames] at hfound
  cases hsegments : Text.segments dotted with
  | nil => exact absurd hsegments (Text.segments_ne_nil dotted)
  | cons first rest =>
    rw [hsegments] at hfound hother
    have hne : ∀ d ∈ before ++ after, d.name ≠ first :=
      fun d hd heq => hother d hd (by rw [heq]; rfl)
    rw [List.cons_append, Declaration.find?_append_of_ne_right
      fun d hd => hne d (List.mem_append_right _ hd), Declaration.find?_append_of_ne
      fun d hd => hne d (List.mem_append_left _ hd)]
    exact hfound

/-- A type that a namespace lists is declared after those listed before it. -/
theorem exists_declaredMembers (hk : t.arena.kindOf? i = some kind) (hkind : kind.isNamespace = true)
    {earlier later : NodeList} {member : NodeIndex} {typeName : String}
    (hmembers : t.memberList i = earlier ++ member :: later)
    (hmember : t.typeName? member = some typeName) :
    ∃ before after, t.declaredMembers i = before ++ member :: after ∧ ∀ j ∈ before, j ∈ earlier := by
  obtain ⟨k, hmemberKind, hdecl⟩ := exists_kind_of_typeName? hmember
  rw [declaredMembers, hmembers, List.filter_append, List.filter_cons_of_pos]
  · exact ⟨_, _, rfl, fun j hj => (List.mem_filter.1 hj).1⟩
  · simp [hk, hmemberKind, SyntaxKind.declares, hdecl, SyntaxKind.isClassLike_of_isNamespace hkind]

theorem exists_unfolds (h : t.arena.NamesSpace i kind dotted members name)
    (hkind : kind.isNamespace = true) {options : DeclarationOptions}
    (hr : t.declare options = .ok r) {unit : Syntax.CompilationUnit}
    (hunit : t.arena.payload? .compilationUnit t.root = some unit) (hi : i ∈ unit.members) :
    ∃ before after outer innermost inner,
      t.Unfolds r i dotted members before after outer innermost inner := by
  obtain ⟨s, hs, rfl⟩ := declare_eq_ok hr
  obtain ⟨hints, -, hroot, -, -, hbuilt⟩ := sources_stages hs
  have hmem : i ∈ t.declaredMembers t.root :=
    mem_declaredMembers_of_namespace hroot rfl (by rwa [memberList_of_unit hunit]) h.payload?
  -- what the declaration becomes stands among what the members of the unit become
  obtain ⟨earlier, later, hsplit⟩ := List.append_of_mem hmem
  rw [Builder.declarationsOf_eq_size, hsplit] at hbuilt
  obtain ⟨_, chain, _, hchain, hrow, -⟩ := Outcome.mapM_append_cons_eq_ok hbuilt
  have hlisted : chain ∈ s.built := by simp [hrow]
  obtain ⟨depth, inner, madeUp, hinner, hnone, hnest⟩ :=
    Builder.exists_nest_of_declarationFrom h.kindOf? h.payload? hchain
  obtain ⟨before, after, hchildren⟩ := List.append_of_mem (mem_rootChildren hlisted hnone options)
  obtain ⟨outer, innermost, hheaders, hreference⟩ := t.exists_innermost i kind { name, members }
  have hnames : (outer ++ [innermost]).map (·.name) = Text.segments dotted := by
    rw [← hheaders, names_namespaceHeaders]
    exact h.spells.map_segmentText
  rw [List.append_cons, hnest, hheaders] at hchildren
  refine ⟨before, after, outer, innermost, inner ++ madeUp, hchildren, hreference, ?_, ?_, ?_⟩
  · rw [hnames, Text.intercalate_segments]
  · intro header hheader
    have hsegment := List.mem_map_of_mem (f := (·.name)) hheader
    rw [hnames] at hsegment
    exact Text.plain_of_mem_segments hsegment
  · intro hother earlier member later typeName hmembers hmember hplain hearlier
    have hlist : t.memberList i = earlier ++ member :: later := by
      rw [memberList_of_namespace h.payload?, ← hmembers]
    obtain ⟨listed, _, hdeclared, hlisted⟩ := exists_declaredMembers h.kindOf? hkind hlist hmember
    rw [hdeclared] at hinner
    obtain ⟨ty, hty, hreference, hname⟩ := Builder.exists_typeNamed? hinner hmember
      (fun j hj => hearlier j (hlisted j hj)) madeUp
    exact ⟨ty, (findType?_nest hchildren hnames hplain hother).trans hty, hreference, hname⟩

end SyntaxTree

namespace Draft

/-- A name that is composed from a dotted text is read as the text, and a namespace declaration with
such a name unfolds into the segments of the text, whatever is done before and afterwards. -/
theorem composedNames_roundTrip (earlier later : List Act) (dotted : String) :
    let draft := ({} : Draft).after earlier
    let named := (name dotted).run draft
    (named.2.arena.size < 2 ^ 32 →
      (named.2.after later).arena.nameText? named.1 = some dotted ∧
        ∃ last, (named.2.after later).arena.lastIdentifier? named.1 = some last ∧
          Text.LastSegment dotted last) ∧
    ∀ (kind : SyntaxKind) (members : NodeList), kind.isNamespace = true →
      let declared := (namespaceOf kind dotted members).run draft
      declared.2.arena.size < 2 ^ 32 →
        ∀ (t : SyntaxTree) (unit : Syntax.CompilationUnit) (options : DeclarationOptions)
          (r : RootDeclaration), t.arena = (declared.2.after later).arena →
          t.arena.payload? .compilationUnit t.root = some unit → declared.1 ∈ unit.members →
          t.declare options = .ok r →
          ∃ before after outer innermost inner,
            t.Unfolds r declared.1 dotted members before after outer innermost inner := by
  intro draft named
  have hfit : draft.arena.PoolsFit := poolsFit_after earlier
  refine ⟨fun hroom => reads_name hfit dotted hroom (grows_after _ later), ?_⟩
  intro kind members hkind declared hroom t unit options r harena hunit hmember hr
  obtain ⟨nameNode, hspace⟩ := namesSpace_namespaceOf hfit hkind dotted members hroom
  have hnow := hspace.grows (grows_after _ later)
  rw [← harena] at hnow
  exact SyntaxTree.exists_unfolds hnow hkind hr hunit hmember

/-- A class `C` has been composed. -/
def sampleActs : List Act := [.call (.typeOf .classDeclaration "C" [])]

/-- The namespace `A..B` around the class, in a file. -/
def sampleComposed : SyntaxTree :=
  let declared :=
    (namespaceOf .namespaceDeclaration "A..B" [.ofNat 1]).run (({} : Draft).after sampleActs)
  let unit : Act := .call (.compilationUnit { members := [declared.1] })
  ⟨⟨0⟩, "composed.cs", {}, (declared.2.after [unit]).arena, .ofNat 8⟩

theorem sampleComposed_roundTrip :
    (let named := (name "A..B").run (({} : Draft).after sampleActs)
     (named.2.after sampleActs).arena.nameText? named.1 = some "A..B") ∧
    ∃ r ty, sampleComposed.declare {} = .ok r ∧ r.findType? "A..B.C" = some ty ∧
      ty.header.reference = sampleComposed.reference (.ofNat 1) := by
  have htext := (composedNames_roundTrip sampleActs sampleActs "A..B").1 (by decide +kernel)
  have hunfold := (composedNames_roundTrip sampleActs
    [.call (.compilationUnit { members := [.ofNat 7] })] "A..B").2 .namespaceDeclaration [.ofNat 1] rfl
    (by decide +kernel) sampleComposed { members := [.ofNat 7] } {}
  refine ⟨htext.1, ?_⟩
  obtain ⟨r, hr⟩ : ∃ r, sampleComposed.declare {} = .ok r :=
    Outcome.exists_eq_ok (by decide +kernel)
  have hcount : (sampleComposed.declare {}).map (·.children.length) = .ok 1 := by decide +kernel
  obtain ⟨before, after, outer, innermost, inner, hunfolds⟩ :=
    hunfold r (by decide +kernel) (by decide +kernel) (by decide +kernel) hr
  have hlength : r.children.length = 1 := by
    rw [hr] at hcount
    exact Except.ok.inj hcount
  have hother : before ++ after = [] := by
    rw [hunfolds.children] at hlength
    have hnest : (Declaration.nest (outer ++ [innermost]) inner).length = 1 := by
      cases outer <;> rfl
    simp only [List.length_append, hnest] at hlength
    exact List.length_eq_zero_iff.1 (by rw [List.length_append]; omega)
  obtain ⟨ty, hty, hreference, -⟩ := hunfolds.found (by simp [hother]) [] (.ofNat 1) [] "C" rfl
    (by decide +kernel) (by decide +kernel) nofun
  exact ⟨r, ty, hr, hty, hreference⟩

end Draft

end DeclTree
