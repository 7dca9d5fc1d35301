import DeclTree.Proofs.Listing
import DeclTree.Proofs.Rows
/-!
The types that are made up: for each container, those that its members call for, and for a script
the class that holds what it lists.
-/
namespace DeclTree

namespace TypeKind

/-- Whether types of this kind are made up for what stands outside types. -/
def isWrapper : TypeKind → Bool
  | implicitClass | simpleProgram => true
  | _ => false

theorem isWrapper_of_ofSyntax? {k : SyntaxKind} {kind : TypeKind}
    (h : ofSyntax? k = some kind) : kind.isWrapper = false := by
  unfold ofSyntax? at h
  split at h <;> cases h <;> rfl

theorem isSynthetic_of_isWrapper {kind : TypeKind} (h : kind.isWrapper = true) :
    kind.isSynthetic = true := by
  cases kind <;> first | rfl | cases h

end TypeKind

namespace Declaration

/-- The types of a row that are read from source, at any depth. -/
def sourceTypes (row : List Declaration) : List TypeDeclaration :=
  (types row).filter fun ty => !ty.header.kind.isSynthetic

/-- The kinds of the types in a row that are made up for what stands outside types. -/
def wrapperKinds (row : List Declaration) : List TypeKind :=
  ((types row).map (·.header.kind)).filter (·.isWrapper)

@[simp] theorem sourceTypes_nil : sourceTypes [] = [] := by simp [sourceTypes]

@[simp] theorem wrapperKinds_nil : wrapperKinds [] = [] := by simp [wrapperKinds]

@[simp] theorem sourceTypes_append (row others : List Declaration) :
    sourceTypes (row ++ others) = sourceTypes row ++ sourceTypes others := by
  simp [sourceTypes]

@[simp] theorem wrapperKinds_append (row others : List Declaration) :
    wrapperKinds (row ++ others) = wrapperKinds row ++ wrapperKinds others := by
  simp [wrapperKinds]

theorem sourceTypes_cons (d : Declaration) (row : List Declaration) :
    sourceTypes (d :: row) = sourceTypes [d] ++ sourceTypes row :=
  sourceTypes_append [d] row

theorem sourceTypes_nest (headers : List NamespaceHeader) (inner : List Declaration) :
    sourceTypes (nest headers inner) = sourceTypes inner := by
  rw [sourceTypes, types_nest, sourceTypes]

theorem mem_sourceTypes_typeDecl {header : TypeHeader} {inner : List TypeDeclaration}
    {ty : TypeDeclaration} (hty : ty ∈ sourceTypes [.typeDecl (.mk header inner)]) :
    ty = .mk header inner ∨ ty ∈ sourceTypes (inner.map .typeDecl) := by
  rw [sourceTypes, types_typeDecl] at hty
  obtain ⟨hty, hkind⟩ := List.mem_filter.1 hty
  obtain hty | hty := List.mem_cons.1 hty
  · exact .inl hty
  · exact .inr (List.mem_filter.2 ⟨hty, hkind⟩)

theorem wrapperKinds_nest (headers : List NamespaceHeader) (inner : List Declaration) :
    wrapperKinds (nest headers inner) = wrapperKinds inner := by
  rw [wrapperKinds, types_nest, wrapperKinds]

theorem sourceTypes_perm {row others : List Declaration} (h : row.Perm others) :
    (sourceTypes row).Perm (sourceTypes others) :=
  (types_perm h).filter _

theorem wrapperKinds_perm {row others : List Declaration} (h : row.Perm others) :
    (wrapperKinds row).Perm (wrapperKinds others) :=
  ((types_perm h).map _).filter _

end Declaration

namespace SyntaxTree

def lists (t : SyntaxTree) (i : NodeIndex) (c : MemberClass) : Bool :=
  (t.memberList i).any fun j => t.memberClassOf? j == some c

/-- The kinds of the types that are made up for what a container lists. -/
def wrapperKindsIn (t : SyntaxTree) (i : NodeIndex) (acceptsStatements : Bool) : List TypeKind :=
  (if acceptsStatements && t.lists i .statement then [.simpleProgram] else []) ++
    if t.lists i .nonType || (t.lists i .statement && !acceptsStatements) then [.implicitClass]
    else []

variable {t : SyntaxTree}

theorem any_memberClass_eq {i : NodeIndex} {k : SyntaxKind} {listed : List ListedMember}
    (hlisted : t.listMembers k (t.memberList i) = .ok listed) (c : MemberClass) :
    listed.any (·.memberClass == c) = t.lists i c := by
  obtain ⟨hnodes, hclasses⟩ := listMembers_eq_ok hlisted
  rw [lists, ← hnodes, List.any_map, Bool.eq_iff_iff, List.any_eq_true, List.any_eq_true]
  refine exists_congr fun m => and_congr_right fun hm => ?_
  simp [hclasses m hm]

/-- Whether something stands outside types depends only on the classes of member in the list. -/
theorem any_outside_eq {i : NodeIndex} {k : SyntaxKind} {listed : List ListedMember}
    (hlisted : t.listMembers k (t.memberList i) = .ok listed) (acceptsStatements : Bool) :
    (listed.any fun m =>
      m.memberClass == .nonType || (m.memberClass == .statement && !acceptsStatements)) =
        (t.lists i .nonType || (t.lists i .statement && !acceptsStatements)) := by
  rw [← any_memberClass_eq hlisted .nonType, ← any_memberClass_eq hlisted .statement,
    Bool.eq_iff_iff]
  simp only [List.any_eq_true, Bool.or_eq_true, Bool.and_eq_true, and_or_left, exists_or,
    ← and_assoc, exists_and_right]

/-- What is made up for a checked list depends only on the classes of member in the list. -/
theorem map_kind_wrappers {i : NodeIndex} {k : SyntaxKind} {listed : List ListedMember}
    (hlisted : t.listMembers k (t.memberList i) = .ok listed) (members : NodeList)
    (acceptsStatements : Bool) :
    (t.wrappers i members listed acceptsStatements).map (·.header.kind) =
      t.wrapperKindsIn i acceptsStatements := by
  have hprogram : ListedMember.select listed .statement = [] ↔ t.lists i .statement = false := by
    rw [← any_memberClass_eq hlisted .statement]
    simp [ListedMember.select]
  unfold wrappers wrapperKindsIn
  dsimp only
  rw [any_outside_eq hlisted, List.map_append]
  congr 1
  · cases hselect : ListedMember.select listed .statement with
    | nil => cases acceptsStatements <;> simp [hprogram.1 hselect]
    | cons first rest =>
      have hlists : t.lists i .statement = true := by
        cases hl : t.lists i .statement with
        | true => rfl
        | false =>
          rw [hprogram.2 hl] at hselect
          cases hselect
      cases acceptsStatements with
      | false => simp
      | true => simp [hlists, simpleProgram, TypeDeclaration.header]
  · split
    · rfl
    · rfl

/-- What is made up for a list of members is a program for its statements, where these are accepted,
or a class for the members that are left outside. -/
theorem mem_wrappers_cases {i : NodeIndex} {members : NodeList} {listed : List ListedMember}
    {acceptsStatements : Bool} {ty : TypeDeclaration}
    (hty : ty ∈ t.wrappers i members listed acceptsStatements) :
    (∃ first globals, ty = t.simpleProgram i first globals) ∨
      ty = t.implicitClass i members acceptsStatements ∧ (listed.any fun m =>
        m.memberClass == .nonType || (m.memberClass == .statement && !acceptsStatements)) = true := by
  unfold wrappers at hty
  obtain hprogram | houtside := List.mem_append.1 hty
  · split at hprogram
    · exact .inl ⟨_, _, List.mem_singleton.1 hprogram⟩
    · cases hprogram
  · split at houtside
    case isTrue hany => exact .inr ⟨List.mem_singleton.1 houtside, hany⟩
    case isFalse => cases houtside

theorem mem_wrappers {i : NodeIndex} {members : NodeList} {listed : List ListedMember}
    {acceptsStatements : Bool} {ty : TypeDeclaration}
    (hty : ty ∈ t.wrappers i members listed acceptsStatements) :
    ty.children = [] ∧ ty.header.kind.isWrapper = true := by
  obtain ⟨first, globals, rfl⟩ | ⟨rfl, -⟩ := mem_wrappers_cases hty
  · exact ⟨rfl, rfl⟩
  · exact ⟨rfl, rfl⟩

section Wrappers
variable {i : NodeIndex} {k : SyntaxKind} {listed : List ListedMember}

theorem types_wrappers (members : NodeList) (acceptsStatements : Bool) :
    Declaration.types ((t.wrappers i members listed acceptsStatements).map .typeDecl) =
      t.wrappers i members listed acceptsStatements :=
  Declaration.types_leaves fun _ hty => (mem_wrappers hty).1

theorem sourceTypes_wrappers (members : NodeList) (acceptsStatements : Bool) :
    Declaration.sourceTypes ((t.wrappers i members listed acceptsStatements).map .typeDecl) =
      [] := by
  rw [Declaration.sourceTypes, types_wrappers]
  refine List.filter_eq_nil_iff.2 fun ty hty => ?_
  simp [TypeKind.isSynthetic_of_isWrapper (mem_wrappers hty).2]

theorem wrapperKinds_wrappers (hlisted : t.listMembers k (t.memberList i) = .ok listed)
    (members : NodeList) (acceptsStatements : Bool) :
    Declaration.wrapperKinds ((t.wrappers i members listed acceptsStatements).map .typeDecl) =
      t.wrapperKindsIn i acceptsStatements := by
  rw [Declaration.wrapperKinds, types_wrappers, ← map_kind_wrappers hlisted members]
  refine List.filter_eq_self.2 fun kind hkind => ?_
  obtain ⟨ty, hty, rfl⟩ := List.mem_map.1 hkind
  exact (mem_wrappers hty).2

theorem sizes_wrappers (hlisted : t.listMembers k (t.memberList i) = .ok listed)
    (members : NodeList) (acceptsStatements : Bool) :
    Declaration.sizes ((t.wrappers i members listed acceptsStatements).map .typeDecl) =
      (t.wrapperKindsIn i acceptsStatements).length := by
  rw [Declaration.sizes_leaves fun _ hty => (mem_wrappers hty).1,
    ← map_kind_wrappers hlisted members, List.length_map]

end Wrappers

section Script
variable (options : DeclarationOptions) (members : NodeList) (inner : List TypeDeclaration)

theorem sourceTypes_scriptClass : Declaration.sourceTypes [t.scriptClass options members inner] =
    Declaration.sourceTypes (inner.map .typeDecl) := by
  rw [← nest_scriptHeaders, Declaration.sourceTypes_nest, Declaration.sourceTypes, scriptType,
    Declaration.types_typeDecl]
  cases hs : options.isSubmission <;>
    simp [Declaration.sourceTypes, TypeDeclaration.header, TypeKind.isSynthetic]

theorem wrapperKinds_scriptClass :
    Declaration.wrapperKinds [t.scriptClass options members inner] =
      Declaration.wrapperKinds (inner.map .typeDecl) := by
  rw [← nest_scriptHeaders, Declaration.wrapperKinds_nest, Declaration.wrapperKinds, scriptType,
    Declaration.types_typeDecl]
  cases hs : options.isSubmission <;>
    simp [Declaration.wrapperKinds, TypeDeclaration.header, TypeKind.isWrapper]

theorem sizes_scriptClass : Declaration.sizes [t.scriptClass options members inner] =
    (Text.segments options.scriptClassName).length +
      Declaration.sizes (inner.map .typeDecl) := by
  have hpos : 0 < (Text.segments options.scriptClassName).length := by
    simp [Text.segments, Text.split, Text.splitList]
  rw [← nest_scriptHeaders, Declaration.sizes_nest, Declaration.sizes_map_typeDecl, scriptHeaders,
    List.length_map, List.length_dropLast]
  simp only [scriptType, Declaration.sizes, Declaration.size, TypeDeclaration.size]
  omega

end Script

end SyntaxTree

end DeclTree
