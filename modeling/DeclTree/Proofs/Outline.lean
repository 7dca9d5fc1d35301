import DeclTree.Declaration.Build
import DeclTree.Proofs.Budget
import DeclTree.Proofs.Renaming
/-!
The outline of a tree: all of it but statements, expressions and the links to them. Two arenas may
have the same outline with other indices for the nodes, and then all that is read for declarations
is the same in both.
-/
namespace DeclTree

/-- A payload without its link to a body or to a value. -/
def Shape.withoutBody : (s : Shape) → s.Data → s.Data
  | .enumMember, d => { d with value := .missing }
  | .declarator, d => { d with initializer := .missing }
  | .method, d => { d with body := .missing }
  | .property, d => { d with initializer := .missing }
  | .accessor, d => { d with body := .missing }
  | .parameter, d => { d with defaultValue := .missing }
  | _, d => d

/-- What a header says but for the slot of the payload. -/
def Header.traits (h : Header) : SyntaxKind × NodeFlags × Span := (h.kind, h.flags, h.span)

/-- Replaces both indices of a segment. -/
def NameSegment.rename (p : NodeIndex → NodeIndex) (s : NameSegment) : NameSegment :=
  ⟨p s.segment, p s.upTo⟩

namespace Arena

/-- Every node of the first arena stands in the second one at another index and looks the same there
from outside: the parts of its payload are those that stand at the other indices of the parts. -/
structure SameOutline (a : Arena) (p : NodeIndex → NodeIndex) (a' : Arena) : Prop where
  isMissing : ∀ i, (p i).isMissing = i.isMissing
  traits : ∀ i, (a'.get? (p i)).map Header.traits = (a.get? i).map Header.traits
  payload : ∀ s, s ≠ .composite → ∀ i, (a'.payload? s (p i)).map s.withoutBody =
    (a.payload? s i).map fun d => s.withoutBody (s.rename p d)

namespace SameOutline
variable {a a' : Arena} {p : NodeIndex → NodeIndex} (h : a.SameOutline p a')
include h

section Nodes

theorem isPresent (i : NodeIndex) : (p i).isPresent = i.isPresent := by
  rw [NodeIndex.isPresent, NodeIndex.isPresent, h.isMissing]

theorem get?_eq_none {i : NodeIndex} (hget : a.get? i = none) : a'.get? (p i) = none := by
  have htraits := h.traits i
  rwa [hget, Option.map_none, Option.map_eq_none_iff] at htraits

theorem get?_eq_some {i : NodeIndex} {hd : Header} (hget : a.get? i = some hd) :
    ∃ hd', a'.get? (p i) = some hd' ∧ hd'.traits = hd.traits := by
  have htraits := h.traits i
  rwa [hget, Option.map_some, Option.map_eq_some_iff] at htraits

theorem kindOf?_eq (i : NodeIndex) : a'.kindOf? (p i) = a.kindOf? i := by
  have hkind := congrArg (Option.map Prod.fst) (h.traits i)
  rwa [Option.map_map, Option.map_map] at hkind

theorem span?_eq (i : NodeIndex) : (a'.get? (p i)).map (·.span) = (a.get? i).map (·.span) := by
  have hspan := congrArg (Option.map fun t => t.2.2) (h.traits i)
  rwa [Option.map_map, Option.map_map] at hspan

theorem kindsOf_eq (is : NodeList) : a'.kindsOf (is.map p) = a.kindsOf is := by
  rw [kindsOf, List.filterMap_map]
  exact List.filterMap_congr fun i _ => h.kindOf?_eq i

theorem hasKind_eq (is : NodeList) (kind : SyntaxKind) :
    a'.hasKind (is.map p) kind = a.hasKind is kind := by
  rw [hasKind, h.kindsOf_eq, hasKind]

variable {s : Shape}

/-- What does not look at the body reads the same from both payloads. -/
theorem map_payload? {β : Type} (hs : s ≠ .composite) (f : s.Data → β)
    (hf : ∀ d, f (s.withoutBody d) = f d) (i : NodeIndex) :
    (a'.payload? s (p i)).map f = (a.payload? s i).map fun d => f (s.rename p d) := by
  have hbody := congrArg (Option.map f) (h.payload s hs i)
  simpa only [Option.map_map, Function.comp_def, hf] using hbody

theorem bind_payload? {β : Type} (hs : s ≠ .composite) (f : s.Data → Option β)
    (hf : ∀ d, f (s.withoutBody d) = f d) (i : NodeIndex) :
    (a'.payload? s (p i)).bind f = (a.payload? s i).bind fun d => f (s.rename p d) := by
  have hbody := congrArg (·.bind f) (h.payload s hs i)
  simpa only [Option.bind_map, Function.comp_def, hf] using hbody

theorem payload?_eq (hs : s ≠ .composite) (hbody : ∀ d, s.withoutBody d = d) (i : NodeIndex) :
    a'.payload? s (p i) = (a.payload? s i).map (s.rename p) := by
  have hsame := h.map_payload? hs id hbody i
  rwa [Option.map_id] at hsame

theorem identifierText?_eq (i : NodeIndex) : a'.identifierText? (p i) = a.identifierText? i :=
  h.map_payload? (s := .identifier) (by decide) _ (fun _ => rfl) i

end Nodes

section Names

theorem lastIdentifierFrom_eq (depth : Nat) (i : NodeIndex) :
    a'.lastIdentifierFrom depth (p i) = a.lastIdentifierFrom depth i := by
  induction depth generalizing i with
  | zero => rfl
  | succ depth ih =>
    have hgeneric := h.bind_payload? (s := .genericName) (by decide)
      (fun d => a'.identifierText? d.identifier) (fun _ => rfl) i
    have hqualified := h.bind_payload? (s := .qualifiedName) (by decide)
      (fun d => a'.lastIdentifierFrom depth d.right) (fun _ => rfl) i
    simp only [Shape.rename, h.identifierText?_eq, ih] at hgeneric hqualified
    simp only [lastIdentifierFrom, h.kindOf?_eq, h.identifierText?_eq, Option.bind_eq_bind,
      hgeneric, hqualified]

theorem lastIdentifier?_eq (i : NodeIndex) : a'.lastIdentifier? (p i) = a.lastIdentifier? i := by
  refine Option.ext fun text => ?_
  rw [lastIdentifier?_eq_some_iff, lastIdentifier?_eq_some_iff]
  simp only [h.lastIdentifierFrom_eq]

theorem qualified?_eq (i : NodeIndex) :
    a'.qualified? (p i) = (a.qualified? i).map (Shape.rename p .qualifiedName) := by
  rw [qualified?, qualified?, h.kindOf?_eq]
  split
  · exact h.payload?_eq (s := .qualifiedName) (by decide) (fun _ => rfl) i
  · rfl

theorem segmentsFrom_eq (depth : Nat) (i : NodeIndex) :
    a'.segmentsFrom depth (p i) = (a.segmentsFrom depth i).map (·.rename p) := by
  induction depth generalizing i with
  | zero => rfl
  | succ depth ih =>
    have hqualified := h.qualified?_eq i
    cases hd : a.qualified? i with
    | none =>
      rw [hd] at hqualified
      rw [segmentsFrom_of_simple hqualified, segmentsFrom_of_simple hd]
      rfl
    | some d =>
      rw [hd] at hqualified
      rw [segmentsFrom_of_qualified hqualified, segmentsFrom_of_qualified hd, List.map_append, ← ih]
      rfl

theorem simpleName_eq (segment : NodeIndex) :
    a'.simpleName (p segment) = p (a.simpleName segment) := by
  rw [simpleName, simpleName, h.kindOf?_eq]
  split
  · rw [h.payload?_eq (s := .qualifiedName) (by decide) fun _ => rfl]
    cases a.payload? .qualifiedName segment <;> rfl
  · rfl

theorem isGenericSegment_eq (segment : NodeIndex) :
    a'.isGenericSegment (p segment) = a.isGenericSegment segment := by
  rw [isGenericSegment, h.simpleName_eq, h.kindOf?_eq, isGenericSegment]

theorem isAliasedSegment_eq (segment : NodeIndex) :
    a'.isAliasedSegment (p segment) = a.isAliasedSegment segment := by
  rw [isAliasedSegment, h.kindOf?_eq, isAliasedSegment]

theorem segmentText_eq (segment : NodeIndex) :
    a'.segmentText (p segment) = a.segmentText segment := by
  rw [segmentText, h.lastIdentifier?_eq, segmentText]

end Names

section Members

theorem fieldNames_eq (d : Syntax.Field) :
    a'.fieldNames (Shape.rename p .field d) = a.fieldNames d := by
  simp only [fieldNames, Shape.rename, List.filterMap_map]
  refine List.filterMap_congr fun i _ => ?_
  have hdeclarator := h.bind_payload? (s := .declarator) (by decide)
    (fun d => a'.identifierText? d.identifier) (fun _ => rfl) i
  simp only [Shape.rename, h.identifierText?_eq] at hdeclarator
  exact hdeclarator

theorem operatorName?_eq (kind : SyntaxKind) (d : Syntax.Method) :
    a'.operatorName? kind (Shape.rename p .method d) = a.operatorName? kind d := by
  simp only [operatorName?, Shape.rename, h.kindOf?_eq, h.isPresent, List.length_map]

theorem ownName_eq (explicitInterface identifier : NodeIndex) :
    a'.ownName (p explicitInterface) (p identifier) = a.ownName explicitInterface identifier := by
  rw [ownName, h.isMissing, h.identifierText?_eq, ownName]

theorem ownOperatorName_eq (kind : SyntaxKind) (d : Syntax.Method) :
    a'.ownOperatorName kind (Shape.rename p .method d) = a.ownOperatorName kind d := by
  rw [ownOperatorName, h.operatorName?_eq, ownOperatorName]
  simp only [Shape.rename, h.isMissing]

theorem constructorNames_eq (d : Syntax.Method) :
    a'.constructorNames (Shape.rename p .method d) = a.constructorNames d := by
  simp only [constructorNames, Shape.rename, h.hasKind_eq]

theorem memberNames_eq (member : NodeIndex) : a'.memberNames (p member) = a.memberNames member := by
  have hfield := h.map_payload? (s := .field) (by decide) a'.fieldNames (fun _ => rfl) member
  have hmethod := h.map_payload? (s := .method) (by decide)
    (fun d => a'.ownName d.explicitInterface d.identifier) (fun _ => rfl) member
  have hproperty := h.map_payload? (s := .property) (by decide)
    (fun d => a'.ownName d.explicitInterface d.identifier) (fun _ => rfl) member
  have hconstructor := h.map_payload? (s := .method) (by decide) a'.constructorNames (fun _ => rfl) member
  have hoperator (kind : SyntaxKind) := h.map_payload? (s := .method) (by decide)
    (a'.ownOperatorName kind) (fun _ => rfl) member
  simp only [h.fieldNames_eq] at hfield
  simp only [h.constructorNames_eq] at hconstructor
  simp only [h.ownOperatorName_eq] at hoperator
  simp only [Shape.rename, h.ownName_eq] at hmethod hproperty
  simp only [memberNames, h.kindOf?_eq, hfield, hmethod, hproperty, hconstructor, hoperator]

theorem isNonTypeMember_eq (member : NodeIndex) (skipStatements : Bool) :
    a'.isNonTypeMember (p member) skipStatements = a.isNonTypeMember member skipStatements := by
  rw [isNonTypeMember, h.kindOf?_eq, isNonTypeMember]

theorem isExtensionMethod_eq (member : NodeIndex) :
    a'.isExtensionMethod (p member) = a.isExtensionMethod member := by
  have hparameter (i : NodeIndex) := h.bind_payload? (s := .parameter) (by decide)
    (fun d => some (a'.hasKind d.modifiers .thisKeyword)) (fun _ => rfl) i
  have hmethod := h.bind_payload? (s := .method) (by decide)
    (fun d => d.parameters.head?.bind fun first => (a'.payload? .parameter first).bind
      fun d => some (a'.hasKind d.modifiers .thisKeyword)) (fun _ => rfl) member
  simp only [Shape.rename, List.head?_map, Option.bind_map, Function.comp_def, hparameter,
    h.hasKind_eq] at hmethod
  simp only [isExtensionMethod, h.kindOf?_eq, Option.bind_eq_bind, Option.pure_def, hmethod]

theorem accessorHasAttributes_eq (i : NodeIndex) :
    a'.accessorHasAttributes (p i) = a.accessorHasAttributes i := by
  have haccessor := h.map_payload? (s := .accessor) (by decide)
    (fun d => !d.attributeLists.isEmpty) (fun _ => rfl) i
  simp only [accessorHasAttributes, haccessor, Shape.rename, List.isEmpty_map]

theorem memberHasAttributes_eq (member : NodeIndex) :
    a'.memberHasAttributes (p member) = a.memberHasAttributes member := by
  have hfield := h.map_payload? (s := .field) (by decide)
    (fun d => !d.attributeLists.isEmpty) (fun _ => rfl) member
  have hmethod := h.map_payload? (s := .method) (by decide)
    (fun d => !d.attributeLists.isEmpty) (fun _ => rfl) member
  have hproperty := h.map_payload? (s := .property) (by decide) (fun d =>
    !d.attributeLists.isEmpty || (d.accessors.getD []).any a'.accessorHasAttributes)
    (fun _ => rfl) member
  simp only [Shape.rename, List.isEmpty_map, getD_map_list, List.any_map, Function.comp_def,
    h.accessorHasAttributes_eq] at hfield hmethod hproperty
  simp only [memberHasAttributes, h.kindOf?_eq, hfield, hmethod]
  cases hd : a.payload? .property member with
  | none =>
    rw [hd, Option.map_none, Option.map_eq_none_iff] at hproperty
    simp only [hproperty]
  | some d =>
    rw [hd, Option.map_some, Option.map_eq_some_iff] at hproperty
    obtain ⟨d', hd', hsame⟩ := hproperty
    simp only [hd', hsame]

theorem isRequiredMember_eq (member : NodeIndex) :
    a'.isRequiredMember (p member) = a.isRequiredMember member := by
  have hfield := h.map_payload? (s := .field) (by decide)
    (fun d => a'.hasKind d.modifiers .requiredKeyword) (fun _ => rfl) member
  have hproperty := h.map_payload? (s := .property) (by decide)
    (fun d => a'.hasKind d.modifiers .requiredKeyword) (fun _ => rfl) member
  simp only [Shape.rename, h.hasKind_eq] at hfield hproperty
  simp only [isRequiredMember, h.kindOf?_eq, hfield, hproperty]

theorem memberFacts_eq (skipStatements : Bool) (member : NodeIndex) :
    a'.memberFacts skipStatements (p member) = a.memberFacts skipStatements member := by
  rw [memberFacts, h.isNonTypeMember_eq, h.isExtensionMethod_eq, h.memberHasAttributes_eq,
    h.isRequiredMember_eq, memberFacts]

theorem memberSummary_eq (members : NodeList) (skipStatements hasPrimaryConstructor : Bool) :
    a'.memberSummary (members.map p) skipStatements hasPrimaryConstructor =
      a.memberSummary members skipStatements hasPrimaryConstructor := by
  simp only [memberSummary_eq_union, List.flatMap_map, h.memberNames_eq, FlagSet.unions_map,
    h.memberFacts_eq]

theorem enumSummary_eq (members : NodeList) :
    a'.enumSummary (members.map p) = a.enumSummary members := by
  have hname (i : NodeIndex) := h.bind_payload? (s := .enumMember) (by decide)
    (fun d => a'.identifierText? d.identifier) (fun _ => rfl) i
  have hattributes (i : NodeIndex) := h.map_payload? (s := .enumMember) (by decide)
    (fun d => !d.attributeLists.isEmpty) (fun _ => rfl) i
  simp only [Shape.rename, h.identifierText?_eq] at hname
  simp only [Shape.rename, List.isEmpty_map] at hattributes
  have hflags : (members.filterMap fun i => a'.payload? .enumMember (p i)).map
      (fun (d : Syntax.EnumMember) => !d.attributeLists.isEmpty) =
        (members.filterMap fun i => a.payload? .enumMember i).map
          fun (d : Syntax.EnumMember) => !d.attributeLists.isEmpty := by
    rw [List.map_filterMap, List.map_filterMap]
    exact List.filterMap_congr fun i _ => hattributes i
  have hany := congrArg (·.any id) hflags
  simp only [List.any_map, Function.comp_def, id] at hany
  simp only [enumSummary, List.isEmpty_map, List.filterMap_map, List.filterMap_filterMap,
    Function.comp_def, hname, hany]

end Members

section Hints

theorem nameHint_eq (name : NodeIndex) : a'.nameHint (p name) = a.nameHint name := by
  rw [nameHint, h.lastIdentifier?_eq, nameHint]

theorem attributeNames_eq (attributeLists : NodeList) :
    a'.attributeNames (attributeLists.map p) = (a.attributeNames attributeLists).map p := by
  have hname (entry : NodeIndex) := h.map_payload? (s := .attributeEntry) (by decide)
    (fun e => e.name) (fun _ => rfl) entry
  simp only [attributeNames, List.flatMap_map, List.map_flatMap]
  refine List.flatMap_congr fun list _ => ?_
  rw [h.payload?_eq (s := .attributeList) (by decide) fun _ => rfl]
  cases a.payload? .attributeList list with
  | none => rfl
  | some d =>
    simp only [Option.map_some, Shape.rename, List.filterMap_map, List.map_filterMap,
      Function.comp_def, hname, Option.map_map]

theorem attributeHints_eq (attributeLists : NodeList) :
    a'.attributeHints (attributeLists.map p) = a.attributeHints attributeLists := by
  simp only [attributeHints, h.attributeNames_eq, FlagSet.unions_map, h.nameHint_eq]

theorem aliasHint_eq (d : Syntax.UsingDirective) :
    a'.aliasHint (Shape.rename p .usingDirective d) = a.aliasHint d := by
  simp only [aliasHint, Shape.rename, h.identifierText?_eq, h.nameHint_eq]

theorem usingDirectives_eq (usings : NodeList) : a'.usingDirectives (usings.map p) =
    (a.usingDirectives usings).map (Shape.rename p .usingDirective) := by
  rw [usingDirectives, usingDirectives, List.filterMap_map, List.map_filterMap]
  exact List.filterMap_congr fun i _ => h.payload?_eq (s := .usingDirective) (by decide) (fun _ => rfl) i

theorem aliasHints_eq (usings : NodeList) (isGlobal : Bool) :
    a'.aliasHints (usings.map p) isGlobal = a.aliasHints usings isGlobal := by
  simp only [aliasHints, h.usingDirectives_eq, List.filter_map, Function.comp_def,
    FlagSet.unions_map, h.aliasHint_eq]
  simp only [Shape.rename, h.isPresent]

theorem namespaceMembers_eq (i : NodeIndex) :
    a'.namespaceMembers (p i) = (a.namespaceMembers i).map p := by
  rw [namespaceMembers, namespaceMembers,
    h.map_payload? (s := .namespaceDecl) (by decide) (fun d => d.members) fun _ => rfl]
  cases a.payload? .namespaceDecl i <;> rfl

theorem namespaceUsings_eq (i : NodeIndex) :
    a'.namespaceUsings (p i) = (a.namespaceUsings i).map p := by
  rw [namespaceUsings, namespaceUsings,
    h.map_payload? (s := .namespaceDecl) (by decide) (fun d => d.usings) fun _ => rfl]
  cases a.payload? .namespaceDecl i <;> rfl

theorem fileAliasHints?_eq (unit : NodeIndex) :
    a'.fileAliasHints? (p unit) = a.fileAliasHints? unit := by
  have hunit := h.payload?_eq (s := .compilationUnit) (by decide) (fun _ => rfl) unit
  cases hd : a.payload? .compilationUnit unit with
  | none =>
    rw [hd, Option.map_none] at hunit
    simp [fileAliasHints?, hd, hunit]
  | some d =>
    rw [hd, Option.map_some] at hunit
    have hwalk : Walk.visited? a'.namespaceMembers
        (a'.walkBudget (Shape.rename p .compilationUnit d).members)
        (Shape.rename p .compilationUnit d).members =
          (Walk.visited? a.namespaceMembers (a.walkBudget d.members) d.members).map (·.map p) :=
      Walk.visited?_walkBudget_map a.namespaceMembers_sublist a'.namespaceMembers_sublist
        h.namespaceMembers_eq d.members
    have husings : a'.aliasHints (Shape.rename p .compilationUnit d).usings false =
        a.aliasHints d.usings false := h.aliasHints_eq d.usings false
    rw [fileAliasHints?_of_payload hunit, fileAliasHints?_of_payload hd, hwalk, husings,
      Option.map_map]
    refine congrArg (Option.map · _) (funext fun visits => ?_)
    simp only [Function.comp_apply, FlagSet.unions_map, h.namespaceUsings_eq, h.aliasHints_eq]

end Hints

end SameOutline

end Arena

end DeclTree
