import Mathlib.Data.List.Nodup
import DeclTree.Declaration.Members
import DeclTree.Proofs.OperatorNames
/-!
What a list of members contributes is the union of what its members contribute, name by name and fact
by fact: the loop over the members looks for a fact no longer once it is known, and for what a member
contributes it does not matter which members stand around it.
-/
namespace DeclTree

namespace MemberSummary

instance : Union MemberSummary := ⟨fun s t => ⟨s.names ∪ t.names, s.facts ∪ t.facts⟩⟩

theorem union_def (s t : MemberSummary) : s ∪ t = ⟨s.names ∪ t.names, s.facts ∪ t.facts⟩ := rfl

end MemberSummary

namespace Arena

open Syntax

variable (a : Arena) {member : NodeIndex} {name : String}

/-- The names that one member contributes. -/
inductive Contributes (member : NodeIndex) : String → Prop
  /-- Fields and event fields: the name of each of their variables. -/
  | field {kind : SyntaxKind} {d : Field} {i : NodeIndex} {declarator : Declarator} {name : String} :
      a.kindOf? member = some kind → kind = .fieldDeclaration ∨ kind = .eventFieldDeclaration →
      a.payload? .field member = some d → i ∈ d.declarators →
      a.payload? .declarator i = some declarator →
      a.payload? .identifier declarator.identifier = some ⟨name⟩ → Contributes member name
  | method {d : Method} {name : String} : a.kindOf? member = some .methodDeclaration →
      a.payload? .method member = some d → d.explicitInterface.isMissing = true →
      a.payload? .identifier d.identifier = some ⟨name⟩ → Contributes member name
  | property {kind : SyntaxKind} {d : Property} {name : String} :
      a.kindOf? member = some kind → kind = .propertyDeclaration ∨ kind = .eventDeclaration →
      a.payload? .property member = some d → d.explicitInterface.isMissing = true →
      a.payload? .identifier d.identifier = some ⟨name⟩ → Contributes member name
  | staticConstructor {d : Method} {i : NodeIndex} :
      a.kindOf? member = some .constructorDeclaration → a.payload? .method member = some d →
      i ∈ d.modifiers → a.kindOf? i = some .staticKeyword → Contributes member ".cctor"
  /-- A constructor that cannot be read is no static one. -/
  | constructor : a.kindOf? member = some .constructorDeclaration →
      (∀ (d : Method) i, a.payload? .method member = some d → i ∈ d.modifiers →
        a.kindOf? i ≠ some .staticKeyword) → Contributes member ".ctor"
  | destructor : a.kindOf? member = some .destructorDeclaration → Contributes member "Finalize"
  | indexer : a.kindOf? member = some .indexerDeclaration → Contributes member "this[]"
  | operator {d : Method} {token : SyntaxKind} {name : String} :
      a.kindOf? member = some .operatorDeclaration →
      a.payload? .method member = some d → d.explicitInterface.isMissing = true →
      a.kindOf? d.operatorToken = some token →
      Operator.IsName token d.parameters.length d.checkedKeyword.isPresent name →
      Contributes member name
  | conversion {d : Method} {keyword : SyntaxKind} {name : String} :
      a.kindOf? member = some .conversionOperatorDeclaration →
      a.payload? .method member = some d → d.explicitInterface.isMissing = true →
      a.kindOf? d.operatorToken = some keyword →
      Operator.IsConversionName keyword d.checkedKeyword.isPresent name → Contributes member name

/-- The facts that one member shows. -/
inductive Shows (skipStatements : Bool) (member : NodeIndex) : TypeFact → Prop
  | nonType {kind : SyntaxKind} : a.kindOf? member = some kind → kind ∈ SyntaxKind.nonTypeKinds →
      Shows skipStatements member .hasAnyNonTypeMembers
  | statement : a.kindOf? member = some .globalStatement → skipStatements = false →
      Shows skipStatements member .hasAnyNonTypeMembers
  | extensionMethod {d : Method} {first : NodeIndex} {rest : NodeList} {p : Parameter}
      {i : NodeIndex} : a.kindOf? member = some .methodDeclaration →
      a.payload? .method member = some d → d.parameters = first :: rest →
      a.payload? .parameter first = some p → i ∈ p.modifiers → a.kindOf? i = some .thisKeyword →
      Shows skipStatements member .hasExtensionMethodSyntax
  | fieldAttributes {d : Field} : a.payload? .field member = some d → d.attributeLists ≠ [] →
      Shows skipStatements member .anyMemberHasAttributes
  | methodAttributes {d : Method} : a.payload? .method member = some d → d.attributeLists ≠ [] →
      Shows skipStatements member .anyMemberHasAttributes
  | propertyAttributes {d : Property} : a.payload? .property member = some d →
      d.attributeLists ≠ [] → Shows skipStatements member .anyMemberHasAttributes
  | accessorAttributes {d : Property} {accessors : NodeList} {i : NodeIndex} {accessor : Accessor} :
      a.payload? .property member = some d → d.accessors = some accessors → i ∈ accessors →
      a.payload? .accessor i = some accessor → accessor.attributeLists ≠ [] →
      Shows skipStatements member .anyMemberHasAttributes
  | requiredField {d : Field} {i : NodeIndex} : a.kindOf? member = some .fieldDeclaration →
      a.payload? .field member = some d → i ∈ d.modifiers → a.kindOf? i = some .requiredKeyword →
      Shows skipStatements member .hasRequiredMembers
  | requiredProperty {d : Property} {i : NodeIndex} : a.kindOf? member = some .propertyDeclaration →
      a.payload? .property member = some d → i ∈ d.modifiers →
      a.kindOf? i = some .requiredKeyword → Shows skipStatements member .hasRequiredMembers

variable {a}

theorem hasKind_iff {is : NodeList} {kind : SyntaxKind} :
    a.hasKind is kind = true ↔ ∃ i ∈ is, a.kindOf? i = some kind := by
  simp [hasKind, kindsOf]

/-! ### Names -/

theorem mem_fieldNames {d : Field} : name ∈ a.fieldNames d ↔
    ∃ i ∈ d.declarators, ∃ declarator : Declarator, a.payload? .declarator i = some declarator ∧
      a.payload? .identifier declarator.identifier = some ⟨name⟩ := by
  simp [fieldNames, Option.bind_eq_some_iff, identifierText?_eq_some_iff]

theorem mem_ownName {explicitInterface identifier : NodeIndex} :
    name ∈ a.ownName explicitInterface identifier ↔
      explicitInterface.isMissing = true ∧ a.payload? .identifier identifier = some ⟨name⟩ := by
  cases h : explicitInterface.isMissing <;> simp [ownName, h, identifierText?_eq_some_iff]

theorem mem_ownOperatorName {kind : SyntaxKind} {d : Method} :
    name ∈ a.ownOperatorName kind d ↔
      d.explicitInterface.isMissing = true ∧ a.operatorName? kind d = some name := by
  cases h : d.explicitInterface.isMissing <;> simp [ownOperatorName, h]

theorem operatorName?_eq_some {d : Method} :
    a.operatorName? .operatorDeclaration d = some name ↔ ∃ token,
      a.kindOf? d.operatorToken = some token ∧
        Operator.IsName token d.parameters.length d.checkedKeyword.isPresent name := by
  simp [operatorName?, Option.bind_eq_some_iff, Operator.name_eq_iff]

theorem conversionName?_eq_some {d : Method} :
    a.operatorName? .conversionOperatorDeclaration d = some name ↔ ∃ keyword,
      a.kindOf? d.operatorToken = some keyword ∧
        Operator.IsConversionName keyword d.checkedKeyword.isPresent name := by
  simp [operatorName?, Option.bind_eq_some_iff, Operator.conversionName_eq_iff]

theorem mem_constructorNames {d : Method} : name ∈ a.constructorNames d ↔
    a.hasKind d.modifiers .staticKeyword = true ∧ name = ".cctor" ∨
      a.hasKind d.modifiers .staticKeyword = false ∧ name = ".ctor" := by
  cases h : a.hasKind d.modifiers .staticKeyword <;>
    simp [constructorNames, h, MemberSummary.constructorName, MemberSummary.staticConstructorName]

/-- What is read from a payload is there only if the payload is. -/
theorem mem_getD_map {α β : Type} {payload? : Option α} {f : α → List β} {x : β} :
    x ∈ (payload?.map f).getD [] ↔ ∃ d, payload? = some d ∧ x ∈ f d := by
  cases payload? <;> simp

theorem contributes_of_mem (h : name ∈ a.memberNames member) : a.Contributes member name := by
  unfold memberNames at h
  dsimp only at h
  split at h
  case h_1 hkind | h_2 hkind =>
    obtain ⟨d, hd, hname⟩ := mem_getD_map.1 h
    obtain ⟨i, hi, declarator, hdeclarator, htext⟩ := mem_fieldNames.1 hname
    exact .field hkind (by simp) hd hi hdeclarator htext
  case h_3 hkind =>
    obtain ⟨d, hd, hname⟩ := mem_getD_map.1 h
    obtain ⟨hinterface, htext⟩ := mem_ownName.1 hname
    exact .method hkind hd hinterface htext
  case h_4 hkind | h_5 hkind =>
    obtain ⟨d, hd, hname⟩ := mem_getD_map.1 h
    obtain ⟨hinterface, htext⟩ := mem_ownName.1 hname
    exact .property hkind (by simp) hd hinterface htext
  case h_6 hkind =>
    cases hd : a.payload? .method member with
    | none =>
      rw [hd] at h
      exact List.mem_singleton.1 h ▸ .constructor hkind (by simp [hd])
    | some d =>
      rw [hd] at h
      obtain ⟨hstatic, rfl⟩ | ⟨hstatic, rfl⟩ := mem_constructorNames.1 h
      · obtain ⟨i, hi, hkindof⟩ := hasKind_iff.1 hstatic
        exact .staticConstructor hkind hd hi hkindof
      · refine .constructor hkind fun d' i hd' hi hkindof => ?_
        obtain rfl := Option.some.inj (hd.symm.trans hd')
        exact absurd (hasKind_iff.2 ⟨i, hi, hkindof⟩) (by simp [hstatic])
  case h_7 hkind => exact List.mem_singleton.1 h ▸ .destructor hkind
  case h_8 hkind => exact List.mem_singleton.1 h ▸ .indexer hkind
  case h_9 hkind =>
    obtain ⟨d, hd, hname⟩ := mem_getD_map.1 h
    obtain ⟨hinterface, hoperator⟩ := mem_ownOperatorName.1 hname
    obtain ⟨token, htoken, hnamed⟩ := operatorName?_eq_some.1 hoperator
    exact .operator hkind hd hinterface htoken hnamed
  case h_10 hkind =>
    obtain ⟨d, hd, hname⟩ := mem_getD_map.1 h
    obtain ⟨hinterface, hconversion⟩ := mem_ownOperatorName.1 hname
    obtain ⟨keyword, hkeyword, hnamed⟩ := conversionName?_eq_some.1 hconversion
    exact .conversion hkind hd hinterface hkeyword hnamed
  case h_11 => cases h

theorem mem_memberNames : name ∈ a.memberNames member ↔ a.Contributes member name := by
  refine ⟨contributes_of_mem, fun h => ?_⟩
  cases h with
  | field hkind hcases hd hi hdeclarator htext =>
    obtain rfl | rfl := hcases <;> simp only [memberNames, hkind, mem_getD_map, mem_fieldNames]
    all_goals exact ⟨_, hd, _, hi, _, hdeclarator, htext⟩
  | method hkind hd hinterface htext =>
    simp only [memberNames, hkind, mem_getD_map, mem_ownName]
    exact ⟨_, hd, hinterface, htext⟩
  | property hkind hcases hd hinterface htext =>
    obtain rfl | rfl := hcases <;> simp only [memberNames, hkind, mem_getD_map, mem_ownName]
    all_goals exact ⟨_, hd, hinterface, htext⟩
  | staticConstructor hkind hd hi hstatic =>
    simp only [memberNames, hkind, hd, Option.map_some, Option.getD_some]
    exact mem_constructorNames.2 (.inl ⟨hasKind_iff.2 ⟨_, hi, hstatic⟩, rfl⟩)
  | constructor hkind hstatic =>
    simp only [memberNames, hkind]
    cases hd : a.payload? .method member with
    | none => exact List.mem_singleton.2 rfl
    | some d =>
      refine mem_constructorNames.2 (.inr ⟨Bool.eq_false_iff.2 fun hkindof => ?_, rfl⟩)
      obtain ⟨i, hi, hkindof⟩ := hasKind_iff.1 hkindof
      exact hstatic d i hd hi hkindof
  | destructor hkind => simp [memberNames, hkind, MemberSummary.destructorName]
  | indexer hkind => simp [memberNames, hkind, MemberSummary.indexerName]
  | operator hkind hd hinterface htoken hnamed =>
    simp only [memberNames, hkind, mem_getD_map, mem_ownOperatorName]
    exact ⟨_, hd, hinterface, operatorName?_eq_some.2 ⟨_, htoken, hnamed⟩⟩
  | conversion hkind hd hinterface hkeyword hnamed =>
    simp only [memberNames, hkind, mem_getD_map, mem_ownOperatorName]
    exact ⟨_, hd, hinterface, conversionName?_eq_some.2 ⟨_, hkeyword, hnamed⟩⟩

/-! ### Facts -/

/-- The shapes of members that are no types belong to just those kinds. -/
theorem mem_nonTypeKinds {kind : SyntaxKind} : kind ∈ SyntaxKind.nonTypeKinds ↔
    kind.shape? = some .field ∨ kind.shape? = some .method ∨ kind.shape? = some .property := by
  cases kind <;> decide

variable {skipStatements : Bool}

theorem isNonTypeMember_iff : a.isNonTypeMember member skipStatements = true ↔
    a.Shows skipStatements member .hasAnyNonTypeMembers := by
  constructor
  · intro h
    unfold isNonTypeMember at h
    split at h
    case h_1 hkind => exact .statement hkind (by simpa using h)
    case h_2 kind _ hkind =>
      exact .nonType hkind (mem_nonTypeKinds.2 (by simpa [or_assoc] using h))
    case h_3 => cases h
  · intro h
    cases h with
    | nonType hkind hmem =>
      rename_i kind
      have hne : kind ≠ .globalStatement := fun heq => absurd (heq ▸ hmem) (by decide)
      simpa [isNonTypeMember, hkind, hne, or_assoc] using mem_nonTypeKinds.1 hmem
    | statement hkind hskip => simp [isNonTypeMember, hkind, hskip]

theorem isExtensionMethod_iff : a.isExtensionMethod member = true ↔
    a.Shows skipStatements member .hasExtensionMethodSyntax := by
  constructor
  · intro h
    unfold isExtensionMethod at h
    split at h
    case isTrue hkind =>
      obtain ⟨d, hd, first, hfirst, p, hp, hthis⟩ : ∃ d : Method, a.payload? .method member = some d ∧
          ∃ first, d.parameters.head? = some first ∧ ∃ p : Parameter,
            a.payload? .parameter first = some p ∧ a.hasKind p.modifiers .thisKeyword = true := by
        simpa [Option.bind_eq_some_iff, Option.getD_eq_iff] using h
      obtain ⟨rest, hparameters⟩ := List.head?_eq_some_iff.1 hfirst
      obtain ⟨i, hi, hkindof⟩ := hasKind_iff.1 hthis
      exact .extensionMethod hkind hd hparameters hp hi hkindof
    case isFalse => cases h
  · intro h
    cases h with
    | extensionMethod hkind hd hfirst hp hi hthis =>
      have hhas := hasKind_iff.2 ⟨_, hi, hthis⟩
      simp [isExtensionMethod, hkind, hd, hfirst, hp, hhas]

/-- A flag that is read from a payload is up only if the payload is there. -/
theorem getD_map_eq_true {α : Type} {payload? : Option α} {f : α → Bool} :
    (payload?.map f).getD false = true ↔ ∃ d, payload? = some d ∧ f d = true := by
  cases payload? <;> simp

theorem accessorHasAttributes_iff {i : NodeIndex} : a.accessorHasAttributes i = true ↔
    ∃ accessor : Accessor, a.payload? .accessor i = some accessor ∧
      accessor.attributeLists ≠ [] := by
  simp [accessorHasAttributes, getD_map_eq_true]

theorem memberHasAttributes_iff : a.memberHasAttributes member = true ↔
    a.Shows skipStatements member .anyMemberHasAttributes := by
  constructor
  · intro h
    unfold memberHasAttributes at h
    split at h
    case h_1 =>
      obtain ⟨d, hd, hlists⟩ := getD_map_eq_true.1 h
      exact .fieldAttributes hd (by simpa using hlists)
    case h_2 =>
      obtain ⟨d, hd, hlists⟩ := getD_map_eq_true.1 h
      exact .methodAttributes hd (by simpa using hlists)
    case h_3 =>
      split at h
      case h_1 d hd =>
        rcases Bool.or_eq_true _ _ ▸ h with hlists | haccessors
        · exact .propertyAttributes hd (by simpa using hlists)
        · obtain ⟨i, hi, hhas⟩ := List.any_eq_true.1 haccessors
          obtain ⟨accessor, haccessor, hlists⟩ := accessorHasAttributes_iff.1 hhas
          cases hlist : d.accessors with
          | none => simp [hlist] at hi
          | some accessors =>
            exact .accessorAttributes hd hlist (by simpa [hlist] using hi) haccessor hlists
      case h_2 => cases h
    case h_4 => cases h
  · intro h
    cases h with
    | fieldAttributes hd hlists =>
      simp [memberHasAttributes, shape?_of_payload? hd, hd, hlists]
    | methodAttributes hd hlists =>
      simp [memberHasAttributes, shape?_of_payload? hd, hd, hlists]
    | propertyAttributes hd hlists =>
      simp [memberHasAttributes, shape?_of_payload? hd, hd, hlists]
    | accessorAttributes hd haccessors hi haccessor hlists =>
      have hhas := accessorHasAttributes_iff.2 ⟨_, haccessor, hlists⟩
      have hany := List.any_eq_true.2 ⟨_, hi, hhas⟩
      simp [memberHasAttributes, shape?_of_payload? hd, hd, haccessors, hany]

theorem isRequiredMember_iff : a.isRequiredMember member = true ↔
    a.Shows skipStatements member .hasRequiredMembers := by
  constructor
  · intro h
    unfold isRequiredMember at h
    split at h
    case h_1 hkind =>
      obtain ⟨d, hd, hrequired⟩ := getD_map_eq_true.1 h
      obtain ⟨i, hi, hkindof⟩ := hasKind_iff.1 hrequired
      exact .requiredField hkind hd hi hkindof
    case h_2 hkind =>
      obtain ⟨d, hd, hrequired⟩ := getD_map_eq_true.1 h
      obtain ⟨i, hi, hkindof⟩ := hasKind_iff.1 hrequired
      exact .requiredProperty hkind hd hi hkindof
    case h_3 => cases h
  · intro h
    cases h with
    | requiredField hkind hd hi hrequired =>
      simp [isRequiredMember, hkind, hd, hasKind_iff.2 ⟨_, hi, hrequired⟩]
    | requiredProperty hkind hd hi hrequired =>
      simp [isRequiredMember, hkind, hd, hasKind_iff.2 ⟨_, hi, hrequired⟩]

theorem mem_memberFacts {f : TypeFact} :
    f ∈ a.memberFacts skipStatements member ↔ a.Shows skipStatements member f := by
  simp only [memberFacts, FlagSet.mem_union, FlagSet.mem_when]
  constructor
  · rintro (((⟨h, rfl⟩ | ⟨h, rfl⟩) | ⟨h, rfl⟩) | ⟨h, rfl⟩)
    · exact isNonTypeMember_iff.1 h
    · exact isExtensionMethod_iff.1 h
    · exact memberHasAttributes_iff.1 h
    · exact isRequiredMember_iff.1 h
  · intro h
    have hf : f = .hasAnyNonTypeMembers ∨ f = .hasExtensionMethodSyntax ∨
        f = .anyMemberHasAttributes ∨ f = .hasRequiredMembers := by
      cases h <;> simp
    obtain rfl | rfl | rfl | rfl := hf
    · simp [isNonTypeMember_iff.2 h]
    · simp [isExtensionMethod_iff.2 h]
    · simp [memberHasAttributes_iff.2 h]
    · simp [isRequiredMember_iff.2 h]

/-! ### Lists of members -/

section Lists
variable {members others : NodeList} {primary : Bool}

theorem mem_memberSummary_names :
    name ∈ (a.memberSummary members skipStatements primary).names ↔
      ∃ member ∈ members, a.Contributes member name := by
  simp only [memberSummary_eq_union, NameSet.mem_ofList, List.mem_flatMap, mem_memberNames]

theorem mem_memberSummary_facts {f : TypeFact} :
    f ∈ (a.memberSummary members skipStatements primary).facts ↔
      primary = true ∧ f = .hasAnyNonTypeMembers ∨
        ∃ member ∈ members, a.Shows skipStatements member f := by
  simp only [memberSummary_eq_union, FlagSet.mem_union, FlagSet.mem_when, FlagSet.mem_unions,
    mem_memberFacts]

theorem memberSummary_append (members others : NodeList) (p q : Bool) :
    a.memberSummary (members ++ others) skipStatements (p || q) =
      a.memberSummary members skipStatements p ∪ a.memberSummary others skipStatements q := by
  refine MemberSummary.ext (NameSet.ext fun name => ?_) ?_
  · rw [MemberSummary.union_def, NameSet.mem_union]
    simp only [mem_memberSummary_names, List.mem_append, or_and_right, exists_or]
  · simp only [MemberSummary.union_def, memberSummary_eq_union, FlagSet.when_or,
      FlagSet.unions_append]
    rw [FlagSet.union_assoc, FlagSet.union_assoc, ← FlagSet.union_assoc (.when q _),
      FlagSet.union_comm (.when q _), FlagSet.union_assoc]

/-- Neither the order of members nor repetition matters. -/
theorem memberSummary_eq_of_mem_iff (h : ∀ member, member ∈ members ↔ member ∈ others) :
    a.memberSummary members skipStatements primary =
      a.memberSummary others skipStatements primary := by
  refine MemberSummary.ext (NameSet.ext fun name => ?_) ?_
  · simp only [mem_memberSummary_names, h]
  · simp only [memberSummary_eq_union, FlagSet.unions_eq_of_mem_iff _ h]

end Lists

/-- The summary of a list of members is the union of what its members contribute. -/
theorem memberSummary_union (a : Arena) (members : NodeList) (skipStatements primary : Bool) :
    (∀ name, name ∈ (a.memberSummary members skipStatements primary).names ↔
      ∃ member ∈ members, a.Contributes member name) ∧
    (∀ f, f ∈ (a.memberSummary members skipStatements primary).facts ↔
      primary = true ∧ f = .hasAnyNonTypeMembers ∨
        ∃ member ∈ members, a.Shows skipStatements member f) ∧
    (∀ others otherPrimary,
      a.memberSummary (members ++ others) skipStatements (primary || otherPrimary) =
        a.memberSummary members skipStatements primary ∪
          a.memberSummary others skipStatements otherPrimary) ∧
    (∀ others, (∀ member, member ∈ members ↔ member ∈ others) →
      a.memberSummary members skipStatements primary =
        a.memberSummary others skipStatements primary) ∧
    (a.memberSummary members skipStatements primary).names.toList.Pairwise (· < ·) ∧
    ∀ name member, member ∈ members → a.Contributes member name →
      (a.memberSummary members skipStatements primary).names.toList.count name = 1 := by
  refine ⟨fun name => mem_memberSummary_names, fun f => mem_memberSummary_facts,
    fun others otherPrimary => memberSummary_append members others primary otherPrimary,
    fun others h => memberSummary_eq_of_mem_iff h, NameSet.ascending _,
    fun name member hmember hname => ?_⟩
  exact List.count_eq_one_of_mem (NameSet.nodup_toList _)
    (mem_memberSummary_names.2 ⟨member, hmember, hname⟩)

/-- A field `F` with an attribute list, a constructor, the operator `checked -` with one parameter and
the conversion `implicit`. -/
def sampleMembers : Arena :=
  let a : Arena := {}
  let a := (a.add .identifier .identifierToken ⟨4, 5⟩ (⟨"F"⟩ : Identifier)).2
  let a := (a.add .declarator .variableDeclarator ⟨4, 5⟩ ({ identifier := .ofNat 0 } : Declarator)).2
  let a := (a.add .attributeList .attributeList ⟨0, 3⟩ ({} : AttributeList)).2
  let a := (a.add .field .fieldDeclaration ⟨0, 6⟩
    ({ attributeLists := [.ofNat 2], declarators := [.ofNat 1, .ofNat 20] } : Field)).2
  let a := (a.add .method .constructorDeclaration ⟨7, 9⟩ ({} : Method)).2
  let a := (a.addToken .checkedKeyword ⟨20, 27⟩).2
  let a := (a.addToken .minusToken ⟨28, 29⟩).2
  let a := (a.add .parameter .parameter ⟨30, 33⟩ ({} : Parameter)).2
  let a := (a.add .method .operatorDeclaration ⟨10, 36⟩
    ({ checkedKeyword := .ofNat 5, operatorToken := .ofNat 6, parameters := [.ofNat 7] } :
      Method)).2
  let a := (a.addToken .implicitKeyword ⟨37, 45⟩).2
  (a.add .method .conversionOperatorDeclaration ⟨37, 60⟩
    ({ operatorToken := .ofNat 9, parameters := [.ofNat 7] } : Method)).2

theorem sampleMembers_memberSummary :
    let members : NodeList := [.ofNat 3, .ofNat 4, .ofNat 8, .ofNat 10, .missing]
    sampleMembers.memberSummary members false false = sampleMembers.memberSummary
      [.missing, .ofNat 10, .ofNat 4, .ofNat 3, .ofNat 8, .ofNat 3] false false ∧
    ∀ name ∈ ["F", ".ctor", "op_CheckedUnaryNegation", "op_Implicit"],
      (sampleMembers.memberSummary members false false).names.toList.count name = 1 := by
  intro members
  obtain ⟨-, -, -, horder, -, honce⟩ := memberSummary_union sampleMembers members false false
  have hfield : sampleMembers.Contributes (.ofNat 3) "F" :=
    .field (by decide +kernel) (.inl rfl) rfl (by decide +kernel) (i := .ofNat 1) rfl rfl
  have hconstructor : sampleMembers.Contributes (.ofNat 4) ".ctor" :=
    .constructor (by decide +kernel) fun d i hd hi => by
      obtain rfl : d = {} := Option.some.inj (hd.symm.trans (by decide +kernel))
      cases hi
  have hrow : (⟨.minusToken, .unary, "op_UnaryNegation", some "op_CheckedUnaryNegation"⟩ :
      Operator.Row) ∈ Operator.rows := by decide +kernel
  have hminus : Operator.IsName .minusToken 1 true "op_CheckedUnaryNegation" :=
    .checked hrow rfl (show 1 ≠ 2 by decide) rfl rfl
  have hoperator : sampleMembers.Contributes (.ofNat 8) "op_CheckedUnaryNegation" :=
    .operator (by decide +kernel) rfl rfl (by decide +kernel) hminus
  have hconversion : sampleMembers.Contributes (.ofNat 10) "op_Implicit" :=
    .conversion (by decide +kernel) rfl rfl (by decide +kernel) (.implicit rfl)
  refine ⟨horder _ fun member => ?_, ?_⟩
  · simp only [members, List.mem_cons, List.not_mem_nil, or_false]
    grind
  · simp only [List.forall_mem_cons, List.not_mem_nil, false_imp_iff, implies_true, and_true]
    exact ⟨honce _ _ (by simp [members]) hfield, honce _ _ (by simp [members]) hconstructor,
      honce _ _ (by simp [members]) hoperator, honce _ _ (by simp [members]) hconversion⟩

end Arena

end DeclTree
