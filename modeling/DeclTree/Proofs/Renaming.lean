import DeclTree.Declaration.Frames
import DeclTree.Proofs.Rows
/-!
Other indices for the nodes of a tree: what becomes of payloads, faults and declarations when every
index in them is replaced. Kinds, texts and places in the source stay as they are.
-/
namespace DeclTree

/-- Replaces every index that a payload mentions. -/
def Shape.rename (p : NodeIndex → NodeIndex) : (s : Shape) → s.Data → s.Data
  | .identifier, d => d
  | .genericName, d =>
    { identifier := p d.identifier
      typeArguments := d.typeArguments.map p }
  | .qualifiedName, d => { left := p d.left, right := p d.right }
  | .compilationUnit, d =>
    { externs := d.externs.map p
      usings := d.usings.map p
      attributeLists := d.attributeLists.map p
      members := d.members.map p
      referenceDirectives := d.referenceDirectives.map p }
  | .externAlias, d => { identifier := p d.identifier }
  | .usingDirective, d =>
    { globalKeyword := p d.globalKeyword
      staticKeyword := p d.staticKeyword
      aliasName := p d.aliasName
      name := p d.name }
  | .referenceDirective, d => d
  | .attributeList, d => { d with attributes := d.attributes.map p }
  | .attributeEntry, d => { name := p d.name, arguments := d.arguments.map p }
  | .namespaceDecl, d =>
    { attributeLists := d.attributeLists.map p
      modifiers := d.modifiers.map p
      name := p d.name
      externs := d.externs.map p
      usings := d.usings.map p
      members := d.members.map p }
  | .typeDecl, d =>
    { attributeLists := d.attributeLists.map p
      modifiers := d.modifiers.map p
      identifier := p d.identifier
      typeParameters := d.typeParameters.map (·.map p)
      parameterList := d.parameterList.map (·.map p)
      baseList := d.baseList.map (·.map p)
      constraintClauses := d.constraintClauses.map p
      members := d.members.map p }
  | .delegate, d =>
    { attributeLists := d.attributeLists.map p
      modifiers := d.modifiers.map p
      returnType := p d.returnType
      identifier := p d.identifier
      typeParameters := d.typeParameters.map (·.map p)
      parameters := d.parameters.map p
      constraintClauses := d.constraintClauses.map p }
  | .enumDecl, d =>
    { attributeLists := d.attributeLists.map p
      modifiers := d.modifiers.map p
      identifier := p d.identifier
      baseList := d.baseList.map (·.map p)
      members := d.members.map p }
  | .enumMember, d =>
    { attributeLists := d.attributeLists.map p
      identifier := p d.identifier
      value := p d.value }
  | .field, d =>
    { attributeLists := d.attributeLists.map p
      modifiers := d.modifiers.map p
      typeNode := p d.typeNode
      declarators := d.declarators.map p }
  | .declarator, d => { identifier := p d.identifier, initializer := p d.initializer }
  | .method, d =>
    { attributeLists := d.attributeLists.map p
      modifiers := d.modifiers.map p
      returnType := p d.returnType
      explicitInterface := p d.explicitInterface
      identifier := p d.identifier
      operatorToken := p d.operatorToken
      checkedKeyword := p d.checkedKeyword
      typeParameters := d.typeParameters.map (·.map p)
      parameters := d.parameters.map p
      constraintClauses := d.constraintClauses.map p
      body := p d.body }
  | .property, d =>
    { attributeLists := d.attributeLists.map p
      modifiers := d.modifiers.map p
      typeNode := p d.typeNode
      explicitInterface := p d.explicitInterface
      identifier := p d.identifier
      parameters := d.parameters.map p
      accessors := d.accessors.map (·.map p)
      initializer := p d.initializer }
  | .accessor, d =>
    { attributeLists := d.attributeLists.map p
      modifiers := d.modifiers.map p
      keyword := p d.keyword
      body := p d.body }
  | .parameter, d =>
    { attributeLists := d.attributeLists.map p
      modifiers := d.modifiers.map p
      typeNode := p d.typeNode
      identifier := p d.identifier
      defaultValue := p d.defaultValue }
  | .typeParameter, d =>
    { attributeLists := d.attributeLists.map p
      identifier := p d.identifier }
  | .constraintClause, d => { name := p d.name, constraints := d.constraints.map p }
  | .globalStatement, d =>
    { attributeLists := d.attributeLists.map p
      modifiers := d.modifiers.map p
      statement := p d.statement }
  | .incompleteMember, d =>
    { attributeLists := d.attributeLists.map p
      modifiers := d.modifiers.map p
      typeNode := p d.typeNode }
  | .composite, d => { children := d.children.map p }

theorem getD_map_list (p : NodeIndex → NodeIndex) (list? : Option NodeList) :
    (list?.map (·.map p)).getD [] = (list?.getD []).map p := by
  cases list? <;> rfl

/-- The links of a renamed payload are the renamed links, so that no index has been passed over. -/
theorem Shape.links_rename (p : NodeIndex → NodeIndex) (s : Shape) (d : s.Data) :
    s.links (s.rename p d) = (s.links d).map p := by
  cases s <;> simp [Shape.links, Shape.rename, getD_map_list]

theorem Shape.rename_id (s : Shape) (d : s.Data) : s.rename (fun i => i) d = d := by
  cases s <;> simp [Shape.rename]

namespace SyntaxReference

def rename (p : NodeIndex → NodeIndex) (r : SyntaxReference) : SyntaxReference :=
  { r with node := p r.node }

end SyntaxReference

namespace Fault

def rename (p : NodeIndex → NodeIndex) : Fault → Fault
  | rootNotCompilationUnit tree node found => rootNotCompilationUnit tree (p node) found
  | danglingMember tree node container => danglingMember tree (p node) container
  | unexpectedMember tree kind span container => unexpectedMember tree kind span container
  | missingPayload tree node kind shape => missingPayload tree (p node) kind shape
  | endless tree => endless tree

theorem rename_id (e : Fault) : e.rename (fun i => i) = e := by
  cases e <;> rfl

end Fault

namespace TypeHeader

def rename (p : NodeIndex → NodeIndex) (header : TypeHeader) : TypeHeader :=
  { header with reference := header.reference.rename p }

end TypeHeader

namespace NamespaceHeader

def rename (p : NodeIndex → NodeIndex) (header : NamespaceHeader) : NamespaceHeader :=
  { header with reference := header.reference.rename p }

end NamespaceHeader

namespace TypeDeclaration
variable (f : TypeHeader → TypeHeader)

mutual
/-- Changes what a type and the types below it say of themselves. -/
def mapHeaders : TypeDeclaration → TypeDeclaration
  | mk header children => mk (f header) (mapHeadersRow children)

def mapHeadersRow : List TypeDeclaration → List TypeDeclaration
  | [] => []
  | t :: ts => t.mapHeaders :: mapHeadersRow ts
end

theorem mapHeadersRow_eq_map (ts : List TypeDeclaration) :
    mapHeadersRow f ts = ts.map (mapHeaders f) := by
  induction ts with
  | nil => rfl
  | cons t ts ih => rw [mapHeadersRow, ih, List.map_cons]

theorem mapHeaders_mk (header : TypeHeader) (children : List TypeDeclaration) :
    mapHeaders f (mk header children) = mk (f header) (children.map (mapHeaders f)) := by
  rw [mapHeaders, mapHeadersRow_eq_map]

mutual
theorem mapHeaders_id : ∀ t : TypeDeclaration, t.mapHeaders (fun header => header) = t
  | mk header children => by rw [mapHeaders, mapHeadersRow_id children]

theorem mapHeadersRow_id : ∀ ts : List TypeDeclaration, mapHeadersRow (fun header => header) ts = ts
  | [] => rfl
  | t :: ts => by rw [mapHeadersRow, mapHeaders_id t, mapHeadersRow_id ts]
end

mutual
theorem mapHeaders_mapHeaders (f' : TypeHeader → TypeHeader) : ∀ t : TypeDeclaration,
    (t.mapHeaders f).mapHeaders f' = t.mapHeaders fun header => f' (f header)
  | mk header children => by
    rw [mapHeaders, mapHeaders, mapHeaders, mapHeadersRow_mapHeadersRow f' children]

theorem mapHeadersRow_mapHeadersRow (f' : TypeHeader → TypeHeader) : ∀ ts : List TypeDeclaration,
    mapHeadersRow f' (mapHeadersRow f ts) = mapHeadersRow (fun header => f' (f header)) ts
  | [] => rfl
  | t :: ts => by
    rw [mapHeadersRow, mapHeadersRow, mapHeadersRow, mapHeaders_mapHeaders f' t,
      mapHeadersRow_mapHeadersRow f' ts]
end

end TypeDeclaration

namespace Declaration
variable (f : TypeHeader → TypeHeader) (g : NamespaceHeader → NamespaceHeader)

mutual
/-- Changes what a declaration and the declarations below it say of themselves. -/
def mapHeaders : Declaration → Declaration
  | namespaceDecl header children => namespaceDecl (g header) (mapHeadersRow children)
  | typeDecl t => typeDecl (t.mapHeaders f)

def mapHeadersRow : List Declaration → List Declaration
  | [] => []
  | d :: ds => d.mapHeaders :: mapHeadersRow ds
end

theorem mapHeadersRow_eq_map (ds : List Declaration) :
    mapHeadersRow f g ds = ds.map (mapHeaders f g) := by
  induction ds with
  | nil => rfl
  | cons d ds ih => rw [mapHeadersRow, ih, List.map_cons]

theorem mapHeaders_namespaceDecl (header : NamespaceHeader) (children : List Declaration) :
    mapHeaders f g (namespaceDecl header children) =
      namespaceDecl (g header) (children.map (mapHeaders f g)) := by
  rw [mapHeaders, mapHeadersRow_eq_map]

theorem mapHeaders_typeDecl (t : TypeDeclaration) :
    mapHeaders f g (typeDecl t) = typeDecl (t.mapHeaders f) := by
  rw [mapHeaders]

mutual
theorem mapHeaders_id : ∀ d : Declaration,
    d.mapHeaders (fun header => header) (fun header => header) = d
  | namespaceDecl header children => by rw [mapHeaders, mapHeadersRow_id children]
  | typeDecl t => by rw [mapHeaders, TypeDeclaration.mapHeaders_id]

theorem mapHeadersRow_id : ∀ ds : List Declaration,
    mapHeadersRow (fun header => header) (fun header => header) ds = ds
  | [] => rfl
  | d :: ds => by rw [mapHeadersRow, mapHeaders_id d, mapHeadersRow_id ds]
end

mutual
theorem mapHeaders_mapHeaders (f' : TypeHeader → TypeHeader)
    (g' : NamespaceHeader → NamespaceHeader) : ∀ d : Declaration,
    (d.mapHeaders f g).mapHeaders f' g' =
      d.mapHeaders (fun header => f' (f header)) (fun header => g' (g header))
  | namespaceDecl header children => by
    rw [mapHeaders, mapHeaders, mapHeaders, mapHeadersRow_mapHeadersRow f' g' children]
  | typeDecl t => by rw [mapHeaders, mapHeaders, mapHeaders, TypeDeclaration.mapHeaders_mapHeaders]

theorem mapHeadersRow_mapHeadersRow (f' : TypeHeader → TypeHeader)
    (g' : NamespaceHeader → NamespaceHeader) : ∀ ds : List Declaration,
    mapHeadersRow f' g' (mapHeadersRow f g ds) =
      mapHeadersRow (fun header => f' (f header)) (fun header => g' (g header)) ds
  | [] => rfl
  | d :: ds => by
    rw [mapHeadersRow, mapHeadersRow, mapHeadersRow, mapHeaders_mapHeaders f' g' d,
      mapHeadersRow_mapHeadersRow f' g' ds]
end

theorem type?_mapHeaders (d : Declaration) :
    (d.mapHeaders f g).type? = d.type?.map (·.mapHeaders f) := by
  cases d with
  | namespaceDecl header children => rfl
  | typeDecl t => rfl

theorem filterMap_type?_map (row : List Declaration) :
    (row.map (mapHeaders f g)).filterMap (·.type?) =
      (row.filterMap (·.type?)).map (·.mapHeaders f) := by
  rw [List.filterMap_map, List.map_filterMap]
  exact congrArg (List.filterMap · row) (funext (type?_mapHeaders f g))

theorem filter_isNone_map (row : List Declaration) :
    (row.map (mapHeaders f g)).filter (·.type?.isNone) =
      (row.filter (·.type?.isNone)).map (mapHeaders f g) := by
  rw [List.filter_map]
  simp only [Function.comp_def, type?_mapHeaders, Option.isNone_map]

theorem map_map_typeDecl (types : List TypeDeclaration) :
    (types.map typeDecl).map (mapHeaders f g) = (types.map (·.mapHeaders f)).map typeDecl := by
  rw [List.map_map, List.map_map]
  exact List.map_congr_left fun t _ => mapHeaders_typeDecl f g t

theorem children_mapHeaders (d : Declaration) :
    (d.mapHeaders f g).children = d.children.map (mapHeaders f g) := by
  cases d with
  | namespaceDecl header inner => rw [mapHeaders_namespaceDecl, children, children]
  | typeDecl t =>
    cases t with
    | mk header inner =>
      rw [mapHeaders_typeDecl, TypeDeclaration.mapHeaders_mk, children, children,
        TypeDeclaration.children, TypeDeclaration.children, map_map_typeDecl]

theorem map_nest (headers : List NamespaceHeader) (inner : List Declaration) :
    (nest headers inner).map (mapHeaders f g) =
      nest (headers.map g) (inner.map (mapHeaders f g)) := by
  induction headers with
  | nil => rfl
  | cons header headers ih =>
    rw [nest, List.map_cons, List.map_nil, mapHeaders_namespaceDecl, ih, List.map_cons, nest]

theorem flatten_map_mapHeaders (row : List Declaration) :
    flatten (row.map (mapHeaders f g)) = (flatten row).map (mapHeaders f g) := by
  have hvisits (stack : List (Nat × Declaration)) :
      visits (stack.map fun p => (p.1, p.2.mapHeaders f g)) =
        (visits stack).map fun p => (p.1, p.2.mapHeaders f g) := by
    fun_induction visits stack with
    | case1 => rw [List.map_nil, visits]
    | case2 depth d rest ih =>
      rw [List.map_cons, visits, List.map_cons, ← ih, List.map_append, List.map_map,
        children_mapHeaders, List.map_map]
      rfl
  have hrow := hvisits (row.map (0, ·))
  rw [List.map_map] at hrow
  rw [flatten, flatten, List.map_map, List.map_map]
  have hsnd := congrArg (List.map (·.2)) hrow
  rw [List.map_map] at hsnd
  exact hsnd

theorem types_map_mapHeaders (row : List Declaration) :
    types (row.map (mapHeaders f g)) = (types row).map (·.mapHeaders f) := by
  rw [types, flatten_map_mapHeaders, filterMap_type?_map, types]

end Declaration

end DeclTree
