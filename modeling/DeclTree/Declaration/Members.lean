import DeclTree.Declaration.Flags
import DeclTree.Declaration.Operator
import DeclTree.NameSet
import DeclTree.Syntax.Arena
/-!
What the direct members of a container contribute to it: the names by which they are looked up, and
facts. Nested types contribute nothing, since they are declarations of their own. The main lemma says
that a list of members contributes what its members contribute one by one.
-/
namespace DeclTree

/-- The names and facts of a list of members. -/
@[ext] structure MemberSummary where
  names : NameSet := ∅
  facts : TypeFacts := ∅
  deriving DecidableEq

namespace MemberSummary

def constructorName : String := ".ctor"

def staticConstructorName : String := ".cctor"

def destructorName : String := "Finalize"

def indexerName : String := "this[]"

end MemberSummary

namespace Arena

open Syntax

variable (a : Arena)

/-- The names of the variables of a field. -/
def fieldNames (d : Field) : List String :=
  d.declarators.filterMap fun i => do
    let declarator : Declarator ← a.payload? .declarator i
    a.identifierText? declarator.identifier

/-- The name of an operator or conversion whose operator token is there. -/
def operatorName? (kind : SyntaxKind) (d : Method) : Option String := do
  let token ← a.kindOf? d.operatorToken
  let isChecked := d.checkedKeyword.isPresent
  if kind = .conversionOperatorDeclaration then
    return Operator.conversionName token isChecked
  else
    return Operator.name token d.parameters.length isChecked

/-- The name of a member, unless it implements a member of an interface explicitly. -/
def ownName (explicitInterface identifier : NodeIndex) : List String :=
  if explicitInterface.isMissing then (a.identifierText? identifier).toList else []

/-- The name of an operator or conversion, under the same condition. -/
def ownOperatorName (kind : SyntaxKind) (d : Method) : List String :=
  if d.explicitInterface.isMissing then (a.operatorName? kind d).toList else []

def constructorNames (d : Method) : List String :=
  if a.hasKind d.modifiers .staticKeyword then [MemberSummary.staticConstructorName]
  else [MemberSummary.constructorName]

/-- The names by which a member is looked up. -/
def memberNames (member : NodeIndex) : List String :=
  let method? : Option Method := a.payload? .method member
  let property? : Option Property := a.payload? .property member
  match a.kindOf? member with
  | some .fieldDeclaration | some .eventFieldDeclaration =>
    ((a.payload? .field member).map a.fieldNames).getD []
  | some .methodDeclaration =>
    (method?.map fun d => a.ownName d.explicitInterface d.identifier).getD []
  | some .propertyDeclaration | some .eventDeclaration =>
    (property?.map fun d => a.ownName d.explicitInterface d.identifier).getD []
  | some .constructorDeclaration =>
    (method?.map a.constructorNames).getD [MemberSummary.constructorName]
  | some .destructorDeclaration => [MemberSummary.destructorName]
  | some .indexerDeclaration => [MemberSummary.indexerName]
  | some .operatorDeclaration => (method?.map (a.ownOperatorName .operatorDeclaration)).getD []
  | some .conversionOperatorDeclaration =>
    (method?.map (a.ownOperatorName .conversionOperatorDeclaration)).getD []
  | _ => []

/-- Whether a member counts as one that is no type. Top-level statements do, unless they are
skipped because they belong to the top-level program. -/
def isNonTypeMember (member : NodeIndex) (skipStatements : Bool) : Bool :=
  match a.kindOf? member with
  | some .globalStatement => !skipStatements
  | some kind => kind.shape? == some .field || kind.shape? == some .method ||
      kind.shape? == some .property
  | none => false

/-- A method whose first parameter has the modifier `this`. -/
def isExtensionMethod (member : NodeIndex) : Bool :=
  if a.kindOf? member = some .methodDeclaration then
    ((do
      let method : Method ← a.payload? .method member
      let first ← method.parameters.head?
      let parameter : Parameter ← a.payload? .parameter first
      return a.hasKind parameter.modifiers .thisKeyword).getD false : Bool)
  else false

def accessorHasAttributes (i : NodeIndex) : Bool :=
  ((a.payload? .accessor i).map fun (d : Accessor) => !d.attributeLists.isEmpty).getD false

/-- Whether a member, or an accessor of it, has an attribute list. -/
def memberHasAttributes (member : NodeIndex) : Bool :=
  match (a.kindOf? member).bind (·.shape?) with
  | some .field =>
    ((a.payload? .field member).map fun (d : Field) => !d.attributeLists.isEmpty).getD false
  | some .method =>
    ((a.payload? .method member).map fun (d : Method) => !d.attributeLists.isEmpty).getD false
  | some .property =>
    match a.payload? .property member with
    | some (d : Property) =>
      !d.attributeLists.isEmpty || (d.accessors.getD []).any a.accessorHasAttributes
    | none => false
  | _ => false

/-- Whether a field or property has the modifier `required`. -/
def isRequiredMember (member : NodeIndex) : Bool :=
  match a.kindOf? member with
  | some .fieldDeclaration =>
    ((a.payload? .field member).map fun (d : Field) =>
      a.hasKind d.modifiers .requiredKeyword).getD false
  | some .propertyDeclaration =>
    ((a.payload? .property member).map fun (d : Property) =>
      a.hasKind d.modifiers .requiredKeyword).getD false
  | _ => false

/-- The facts that one member contributes. -/
def memberFacts (skipStatements : Bool) (member : NodeIndex) : TypeFacts :=
  .when (a.isNonTypeMember member skipStatements) .hasAnyNonTypeMembers ∪
    .when (a.isExtensionMethod member) .hasExtensionMethodSyntax ∪
    .when (a.memberHasAttributes member) .anyMemberHasAttributes ∪
    .when (a.isRequiredMember member) .hasRequiredMembers

/-- Adds a fact if a member shows it. What is known already is not looked for again. -/
def noteFact (f : TypeFact) (shows : NodeIndex → Bool) (member : NodeIndex) (known : TypeFacts) :
    TypeFacts :=
  if !known.contains f && shows member then known ∪ .single f else known

/-- Adds what one more member contributes. -/
def collectMember (skipStatements : Bool) (known : MemberSummary) (member : NodeIndex) :
    MemberSummary where
  names := known.names.insertAll (a.memberNames member)
  facts :=
    let counted := .when (a.isNonTypeMember member skipStatements) .hasAnyNonTypeMembers
    noteFact .hasRequiredMembers a.isRequiredMember member
      (noteFact .anyMemberHasAttributes a.memberHasAttributes member
        (noteFact .hasExtensionMethodSyntax a.isExtensionMethod member (known.facts ∪ counted)))

/-- What a list of members contributes. A primary constructor counts as a member of its own. -/
def memberSummary (members : NodeList) (skipStatements hasPrimaryConstructor : Bool) :
    MemberSummary :=
  members.foldl (a.collectMember skipStatements)
    { facts := .when hasPrimaryConstructor .hasAnyNonTypeMembers }

theorem noteFact_eq (f : TypeFact) (shows : NodeIndex → Bool) (member : NodeIndex)
    (known : TypeFacts) : noteFact f shows member known = known ∪ .when (shows member) f := by
  unfold noteFact FlagSet.when
  cases hshows : shows member with
  | false => simp
  | true =>
    cases hknown : known.contains f with
    | false => simp
    | true => simpa using (FlagSet.union_single_of_mem hknown).symm

theorem collectMember_eq (skipStatements : Bool) (known : MemberSummary) (member : NodeIndex) :
    a.collectMember skipStatements known member =
      ⟨known.names.insertAll (a.memberNames member),
        known.facts ∪ a.memberFacts skipStatements member⟩ := by
  simp only [collectMember, noteFact_eq, memberFacts, FlagSet.union_assoc]

/-- No member takes anything away from what another one contributes. -/
theorem memberSummary_eq_union (members : NodeList)
    (skipStatements hasPrimaryConstructor : Bool) :
    a.memberSummary members skipStatements hasPrimaryConstructor =
      ⟨.ofList (members.flatMap a.memberNames),
        .when hasPrimaryConstructor .hasAnyNonTypeMembers ∪
          .unions (a.memberFacts skipStatements) members⟩ := by
  have hfold (members : NodeList) (known : MemberSummary) :
      members.foldl (a.collectMember skipStatements) known =
        ⟨known.names.insertAll (members.flatMap a.memberNames),
          known.facts ∪ .unions (a.memberFacts skipStatements) members⟩ := by
    induction members generalizing known with
    | nil => simp [NameSet.insertAll, FlagSet.unions]
    | cons member rest ih =>
      rw [List.foldl_cons, ih, collectMember_eq, List.flatMap_cons, NameSet.insertAll_append,
        FlagSet.unions_cons, FlagSet.union_assoc]
  exact hfold members _

/-- What the members of an enum contribute: every one of them its name. -/
def enumSummary (members : NodeList) : MemberSummary :=
  let enumMembers : List EnumMember := members.filterMap (a.payload? .enumMember ·)
  { names := .ofList (enumMembers.filterMap fun d => a.identifierText? d.identifier)
    facts := .when (!members.isEmpty) .hasAnyNonTypeMembers ∪
      .when (enumMembers.any fun d => !d.attributeLists.isEmpty) .anyMemberHasAttributes }

end Arena

end DeclTree
