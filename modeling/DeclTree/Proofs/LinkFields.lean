import DeclTree.Syntax.Arena
/-!
The fields of payloads that hold indices, shape by shape. A payload is told by its text and by these
fields, so none is left out, and the links of a payload are what its fields hold.
-/
namespace DeclTree.Shape

/-- A field with one index, with a list, or with a list that may be absent. -/
inductive LinkField (s : Shape)
  | single (read : s.Data → NodeIndex)
  | list (read : s.Data → NodeList)
  | optional (read : s.Data → Option NodeList)

/-- The fields of the payloads of a shape, but for texts. -/
def linkFields : (s : Shape) → List (LinkField s)
  | .identifier | .referenceDirective => []
  | .genericName =>
    [.single Syntax.GenericName.identifier, .list Syntax.GenericName.typeArguments]
  | .qualifiedName => [.single Syntax.QualifiedName.left, .single Syntax.QualifiedName.right]
  | .compilationUnit =>
    [.list Syntax.CompilationUnit.externs, .list Syntax.CompilationUnit.usings,
      .list Syntax.CompilationUnit.attributeLists, .list Syntax.CompilationUnit.members,
      .list Syntax.CompilationUnit.referenceDirectives]
  | .externAlias => [.single Syntax.ExternAlias.identifier]
  | .usingDirective =>
    [.single Syntax.UsingDirective.globalKeyword, .single Syntax.UsingDirective.staticKeyword,
      .single Syntax.UsingDirective.aliasName, .single Syntax.UsingDirective.name]
  | .attributeList => [.list Syntax.AttributeList.attributes]
  | .attributeEntry =>
    [.single Syntax.AttributeEntry.name, .list Syntax.AttributeEntry.arguments]
  | .namespaceDecl =>
    [.list Syntax.Namespace.attributeLists, .list Syntax.Namespace.modifiers,
      .single Syntax.Namespace.name, .list Syntax.Namespace.externs,
      .list Syntax.Namespace.usings, .list Syntax.Namespace.members]
  | .typeDecl =>
    [.list Syntax.TypeDecl.attributeLists, .list Syntax.TypeDecl.modifiers,
      .single Syntax.TypeDecl.identifier, .optional Syntax.TypeDecl.typeParameters,
      .optional Syntax.TypeDecl.parameterList, .optional Syntax.TypeDecl.baseList,
      .list Syntax.TypeDecl.constraintClauses, .list Syntax.TypeDecl.members]
  | .delegate =>
    [.list Syntax.Delegate.attributeLists, .list Syntax.Delegate.modifiers,
      .single Syntax.Delegate.returnType, .single Syntax.Delegate.identifier,
      .optional Syntax.Delegate.typeParameters, .list Syntax.Delegate.parameters,
      .list Syntax.Delegate.constraintClauses]
  | .enumDecl =>
    [.list Syntax.EnumDecl.attributeLists, .list Syntax.EnumDecl.modifiers,
      .single Syntax.EnumDecl.identifier, .optional Syntax.EnumDecl.baseList,
      .list Syntax.EnumDecl.members]
  | .enumMember =>
    [.list Syntax.EnumMember.attributeLists, .single Syntax.EnumMember.identifier,
      .single Syntax.EnumMember.value]
  | .field =>
    [.list Syntax.Field.attributeLists, .list Syntax.Field.modifiers,
      .single Syntax.Field.typeNode, .list Syntax.Field.declarators]
  | .declarator => [.single Syntax.Declarator.identifier, .single Syntax.Declarator.initializer]
  | .method =>
    [.list Syntax.Method.attributeLists, .list Syntax.Method.modifiers,
      .single Syntax.Method.returnType, .single Syntax.Method.explicitInterface,
      .single Syntax.Method.identifier, .single Syntax.Method.operatorToken,
      .single Syntax.Method.checkedKeyword, .optional Syntax.Method.typeParameters,
      .list Syntax.Method.parameters, .list Syntax.Method.constraintClauses,
      .single Syntax.Method.body]
  | .property =>
    [.list Syntax.Property.attributeLists, .list Syntax.Property.modifiers,
      .single Syntax.Property.typeNode, .single Syntax.Property.explicitInterface,
      .single Syntax.Property.identifier, .list Syntax.Property.parameters,
      .optional Syntax.Property.accessors, .single Syntax.Property.initializer]
  | .accessor =>
    [.list Syntax.Accessor.attributeLists, .list Syntax.Accessor.modifiers,
      .single Syntax.Accessor.keyword, .single Syntax.Accessor.body]
  | .parameter =>
    [.list Syntax.Parameter.attributeLists, .list Syntax.Parameter.modifiers,
      .single Syntax.Parameter.typeNode, .single Syntax.Parameter.identifier,
      .single Syntax.Parameter.defaultValue]
  | .typeParameter =>
    [.list Syntax.TypeParameter.attributeLists, .single Syntax.TypeParameter.identifier]
  | .constraintClause =>
    [.single Syntax.ConstraintClause.name, .list Syntax.ConstraintClause.constraints]
  | .globalStatement =>
    [.list Syntax.GlobalStatement.attributeLists, .list Syntax.GlobalStatement.modifiers,
      .single Syntax.GlobalStatement.statement]
  | .incompleteMember =>
    [.list Syntax.IncompleteMember.attributeLists, .list Syntax.IncompleteMember.modifiers,
      .single Syntax.IncompleteMember.typeNode]
  | .composite => [.list Syntax.Composite.children]

/-- The text of a payload, if it has one. -/
def text? : (s : Shape) → s.Data → Option String
  | .identifier, d => some d.text
  | .referenceDirective, d => some d.file
  | .attributeList, d => d.target
  | _, _ => none

namespace LinkField
variable {s : Shape}

/-- The field of a payload holds an index. -/
def Holds (d : s.Data) (i : NodeIndex) : LinkField s → Prop
  | single read => read d = i
  | list read => i ∈ read d
  | optional read => ∃ nodes, read d = some nodes ∧ i ∈ nodes

/-- The field is the same in two payloads. -/
def Agrees (d e : s.Data) : LinkField s → Prop
  | single read => read d = read e
  | list read => read d = read e
  | optional read => read d = read e

end LinkField

/-- A payload mentions an index in one of its fields. -/
def Mentions (s : Shape) (d : s.Data) (i : NodeIndex) : Prop := ∃ f ∈ s.linkFields, f.Holds d i

/-- No field is left out. -/
theorem eq_of_linkFields {s : Shape} {d e : s.Data} (htext : s.text? d = s.text? e)
    (hfields : ∀ f ∈ s.linkFields, f.Agrees d e) : d = e := by
  cases s <;> cases d <;> cases e <;>
    simp_all [text?, linkFields, LinkField.Agrees]

theorem exists_eq_some_and_mem {nodes : Option NodeList} {i : NodeIndex} :
    (∃ l, nodes = some l ∧ i ∈ l) ↔ i ∈ nodes.getD [] := by
  cases nodes <;> simp

theorem mem_links_iff {s : Shape} {d : s.Data} {i : NodeIndex} :
    i ∈ s.links d ↔ s.Mentions d i := by
  cases s <;>
    simp only [Mentions, links, linkFields, LinkField.Holds, List.mem_append, List.mem_cons,
      List.not_mem_nil, exists_eq_or_imp, exists_eq_some_and_mem, eq_comm (a := i)] <;>
    grind

end DeclTree.Shape
