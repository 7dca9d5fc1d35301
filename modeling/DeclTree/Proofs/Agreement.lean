import DeclTree.Declaration.NamespaceChain
import DeclTree.Declaration.Synthetic
import DeclTree.Proofs.ModifierReports
/-!
Trees with the same nodes, whose payloads differ in those of containers only: compilation units,
namespaces, and classes and their like. What names, attributes and modifiers say is the same in both,
and so is what a declaration says of itself.
-/
namespace DeclTree

/-- Whether nodes of the shape own a list of members that are declarations. -/
def Shape.isContainer : Shape → Bool
  | .compilationUnit | .namespaceDecl | .typeDecl => true
  | _ => false

namespace Arena

/-- The second arena has the nodes of the first one, and other payloads only for containers. -/
structure Agrees (a a' : Arena) : Prop where
  headers : a'.headers = a.headers
  payload : ∀ s : Shape, s.isContainer = false → ∀ i, a'.payload? s i = a.payload? s i

namespace Agrees
variable {a a' : Arena} (h : a.Agrees a')
include h

theorem get?_eq (i : NodeIndex) : a'.get? i = a.get? i := by
  rw [get?, h.headers, get?]

theorem kindOf?_eq (i : NodeIndex) : a'.kindOf? i = a.kindOf? i := by
  rw [kindOf?, h.get?_eq, kindOf?]

theorem identifierText?_eq (i : NodeIndex) : a'.identifierText? i = a.identifierText? i := by
  rw [identifierText?, h.payload .identifier rfl, identifierText?]

section Names

theorem lastIdentifierFrom_eq (depth : Nat) (i : NodeIndex) :
    a'.lastIdentifierFrom depth i = a.lastIdentifierFrom depth i := by
  induction depth generalizing i with
  | zero => rfl
  | succ depth ih =>
    simp only [lastIdentifierFrom, h.kindOf?_eq, h.identifierText?_eq, h.payload .genericName rfl,
      h.payload .qualifiedName rfl, ih]

theorem lastIdentifier?_eq (i : NodeIndex) : a'.lastIdentifier? i = a.lastIdentifier? i := by
  rw [lastIdentifier?, h.lastIdentifierFrom_eq, lastIdentifier?, size, h.headers, size]

theorem nameHint_eq (name : NodeIndex) : a'.nameHint name = a.nameHint name := by
  rw [nameHint, h.lastIdentifier?_eq, nameHint]

theorem attributeHints_eq (attributeLists : NodeList) :
    a'.attributeHints attributeLists = a.attributeHints attributeLists := by
  have hnames : a'.attributeNames attributeLists = a.attributeNames attributeLists := by
    simp only [attributeNames, h.payload .attributeList rfl, h.payload .attributeEntry rfl]
  rw [attributeHints, funext h.nameHint_eq, hnames, attributeHints]

theorem usingDirectives_eq (usings : NodeList) :
    a'.usingDirectives usings = a.usingDirectives usings := by
  simp only [usingDirectives, h.payload .usingDirective rfl]

theorem aliasHints_eq (usings : NodeList) (isGlobal : Bool) :
    a'.aliasHints usings isGlobal = a.aliasHints usings isGlobal := by
  have halias : a'.aliasHint = a.aliasHint := by
    funext d
    rw [aliasHint, h.identifierText?_eq, h.nameHint_eq, aliasHint]
  rw [aliasHints, halias, h.usingDirectives_eq, aliasHints]

theorem segmentsFrom_eq (depth : Nat) (i : NodeIndex) :
    a'.segmentsFrom depth i = a.segmentsFrom depth i := by
  induction depth generalizing i with
  | zero => rfl
  | succ depth ih =>
    simp only [segmentsFrom, qualified?, h.kindOf?_eq, h.payload .qualifiedName rfl, ih]

theorem segments_eq (name : NodeIndex) : a'.segments name = a.segments name := by
  rw [segments, h.segmentsFrom_eq, segments, size, h.headers, size]

theorem segmentText_eq (segment : NodeIndex) : a'.segmentText segment = a.segmentText segment := by
  rw [segmentText, h.lastIdentifier?_eq, segmentText]

theorem simpleName_eq (segment : NodeIndex) : a'.simpleName segment = a.simpleName segment := by
  simp only [simpleName, h.kindOf?_eq, h.payload .qualifiedName rfl]

end Names

section Members

theorem hasKind_eq (is : NodeList) (kind : SyntaxKind) : a'.hasKind is kind = a.hasKind is kind := by
  rw [hasKind, kindsOf, funext h.kindOf?_eq, hasKind, kindsOf]

theorem memberNames_eq (member : NodeIndex) : a'.memberNames member = a.memberNames member := by
  have hfield : a'.fieldNames = a.fieldNames := by
    funext d
    simp only [fieldNames, h.payload .declarator rfl, h.identifierText?_eq]
  have hconstructor : a'.constructorNames = a.constructorNames := by
    funext d
    simp only [constructorNames, h.hasKind_eq]
  have hoperator : a'.ownOperatorName = a.ownOperatorName := by
    funext kind d
    simp only [ownOperatorName, operatorName?, h.kindOf?_eq]
  simp only [memberNames, ownName, h.kindOf?_eq, h.payload .field rfl, h.payload .method rfl,
    h.payload .property rfl, h.identifierText?_eq, hfield, hconstructor, hoperator]

theorem memberFacts_eq (skipStatements : Bool) (member : NodeIndex) :
    a'.memberFacts skipStatements member = a.memberFacts skipStatements member := by
  have haccessor : a'.accessorHasAttributes = a.accessorHasAttributes := by
    funext i
    simp only [accessorHasAttributes, h.payload .accessor rfl]
  simp only [memberFacts, isNonTypeMember, isExtensionMethod, memberHasAttributes,
    isRequiredMember, h.kindOf?_eq, h.hasKind_eq, h.payload .field rfl, h.payload .method rfl,
    h.payload .property rfl, h.payload .parameter rfl, haccessor]

theorem memberSummary_eq (members : NodeList) (skipStatements hasPrimaryConstructor : Bool) :
    a'.memberSummary members skipStatements hasPrimaryConstructor =
      a.memberSummary members skipStatements hasPrimaryConstructor := by
  rw [memberSummary_eq_union, funext h.memberNames_eq, funext (h.memberFacts_eq skipStatements),
    memberSummary_eq_union]

theorem enumSummary_eq (members : NodeList) : a'.enumSummary members = a.enumSummary members := by
  simp only [enumSummary, h.payload .enumMember rfl, h.identifierText?_eq]

end Members

end Agrees

end Arena

namespace SyntaxTree

/-- Two trees of one file whose arenas agree. -/
structure Agrees (t t' : SyntaxTree) : Prop where
  treeId : t'.id = t.id
  options : t'.options = t.options
  arena : t.arena.Agrees t'.arena

namespace Agrees
variable {t t' : SyntaxTree} (h : t.Agrees t')
include h

theorem location_eq (i : NodeIndex) : t'.location i = t.location i := by
  rw [location, h.treeId, spanOf, h.arena.get?_eq, location, spanOf]

theorem reference_eq (i : NodeIndex) : t'.reference i = t.reference i := by
  rw [reference, h.treeId, spanOf, h.arena.get?_eq, reference, spanOf]

section Modifiers

theorem modifierTokens_eq (tokens : NodeList) :
    ModifierToken.ofList t'.arena tokens = ModifierToken.ofList t.arena tokens := by
  induction tokens with
  | nil => rfl
  | cons i rest ih => rw [ModifierToken.ofList, h.arena.kindOf?_eq, ih, ModifierToken.ofList]

theorem modifiersOf_eq (tokens : NodeList) : t'.modifiersOf tokens = t.modifiersOf tokens := by
  rw [modifiersOf, h.modifierTokens_eq, modifiersOf]

theorem featureDiagnostics_eq (f : Feature) (place : NodeIndex) :
    t'.featureDiagnostics f place = t.featureDiagnostics f place := by
  simp only [featureDiagnostics, h.options, h.location_eq]

theorem modifierDiagnostics_eq (tokens : NodeList) (kind : TypeKind) :
    t'.modifierDiagnostics tokens kind = t.modifierDiagnostics tokens kind := by
  have htoken : t'.tokenDiagnostics = t.tokenDiagnostics := by
    funext seen repeated token
    simp only [tokenDiagnostics, h.featureDiagnostics_eq, h.location_eq]
  have hkind : t'.kindDiagnostics tokens kind = t.kindDiagnostics tokens kind := by
    simp only [kindDiagnostics, keywordDiagnostics, h.arena.kindOf?_eq, h.featureDiagnostics_eq]
  rw [modifierDiagnostics, h.modifierTokens_eq, hkind, listDiagnostics_eq_scan, htoken,
    modifierDiagnostics, listDiagnostics_eq_scan]

end Modifiers

section Types
variable (hints : AttributeHints) (i : NodeIndex)

theorem constraintDiagnostics_eq (arity : UInt32) (clauses : NodeList) :
    t'.constraintDiagnostics arity clauses = t.constraintDiagnostics arity clauses := by
  simp only [constraintDiagnostics, h.location_eq]

theorem declaredName_eq (identifier : NodeIndex) :
    t'.declaredName identifier = t.declaredName identifier := by
  rw [declaredName, h.arena.identifierText?_eq, declaredName]

/-- What a class says of itself depends on its members by what they contribute. -/
theorem classHeader_eq (kind : TypeKind) (d : Syntax.TypeDecl) {members : NodeList}
    (hmembers : ∀ hasPrimaryConstructor,
      t.arena.memberSummary members false hasPrimaryConstructor =
        t.arena.memberSummary d.members false hasPrimaryConstructor) :
    t'.classHeader hints i kind { d with members } = t.classHeader hints i kind d := by
  simp only [classHeader, h.reference_eq, h.location_eq, h.constraintDiagnostics_eq,
    h.modifierDiagnostics_eq, h.declaredName_eq, h.modifiersOf_eq, h.arena.memberSummary_eq,
    hmembers, h.arena.attributeHints_eq]

theorem delegateHeader_eq (d : Syntax.Delegate) :
    t'.delegateHeader hints i d = t.delegateHeader hints i d := by
  simp only [delegateHeader, h.reference_eq, h.location_eq, h.constraintDiagnostics_eq,
    h.modifierDiagnostics_eq, h.declaredName_eq, h.modifiersOf_eq, h.arena.attributeHints_eq]

theorem enumHeader_eq (d : Syntax.EnumDecl) : t'.enumHeader hints i d = t.enumHeader hints i d := by
  simp only [enumHeader, h.reference_eq, h.location_eq, h.modifierDiagnostics_eq,
    h.declaredName_eq, h.modifiersOf_eq, h.arena.enumSummary_eq, h.arena.attributeHints_eq]

end Types

section Namespaces

theorem outerHeader_eq (s : NameSegment) : t'.outerHeader s = t.outerHeader s := by
  rw [outerHeader, h.reference_eq, h.arena.simpleName_eq, h.location_eq, h.arena.segmentText_eq,
    outerHeader]

theorem innerHeader_eq (i : NodeIndex) (d : Syntax.Namespace) (members : NodeList)
    (segment : NodeIndex) :
    t'.innerHeader i { d with members } segment = t.innerHeader i d segment := by
  rw [innerHeader, h.reference_eq, h.arena.simpleName_eq, h.location_eq, h.arena.segmentText_eq,
    innerHeader]

end Namespaces

section MadeUp
variable (hscans : ∀ statement p,
  t'.arena.containsNode statement p = t.arena.containsNode statement p)
include hscans

theorem programFacts_eq (statements : NodeList) :
    t'.programFacts statements = t.programFacts statements := by
  have hawait : t'.arena.isAwait = t.arena.isAwait := by
    funext i
    simp only [Arena.isAwait, h.arena.get?_eq]
  have hyield : t'.arena.isYield = t.arena.isYield := by
    funext i
    simp only [Arena.isYield, h.arena.kindOf?_eq]
  have hreturn : t'.arena.isValueReturn = t.arena.isValueReturn := by
    funext i
    simp only [Arena.isValueReturn, h.arena.kindOf?_eq, h.arena.payload .composite rfl]
  have hawaits : t'.arena.hasAwait = t.arena.hasAwait := by
    funext statement
    rw [Arena.hasAwait, hawait, hscans, Arena.hasAwait]
  have hyields : t'.arena.hasYield = t.arena.hasYield := by
    funext statement
    rw [Arena.hasYield, hyield, hscans, Arena.hasYield]
  have hreturns : t'.arena.hasValueReturn = t.arena.hasValueReturn := by
    funext statement
    rw [Arena.hasValueReturn, hreturn, hscans, Arena.hasValueReturn]
  rw [programFacts, hawaits, hyields, hreturns, programFacts]

/-- Where the scans of statements come to the same answers, the program is the same. -/
theorem simpleProgram_eq (unit first : NodeIndex) (globals : NodeList) :
    t'.simpleProgram unit first globals = t.simpleProgram unit first globals := by
  have hempty : t'.arena.isEmptyStatement = t.arena.isEmptyStatement := by
    funext i
    rw [Arena.isEmptyStatement, h.arena.kindOf?_eq, Arena.isEmptyStatement]
  have hstatements : t'.statementsOf globals = t.statementsOf globals := by
    simp only [statementsOf, h.arena.payload .globalStatement rfl]
  rw [simpleProgram_eq_any, h.programFacts_eq hscans, hstatements, hempty, h.reference_eq,
    h.location_eq, simpleProgram_eq_any]

end MadeUp

theorem implicitClass_eq (container : NodeIndex) (members : NodeList) (skipStatements : Bool) :
    t'.implicitClass container members skipStatements =
      t.implicitClass container members skipStatements := by
  rw [implicitClass, h.arena.memberSummary_eq, h.reference_eq, h.location_eq, implicitClass]

end Agrees

end SyntaxTree

end DeclTree
