import DeclTree.Declaration.Traversal
import DeclTree.Proofs.Nesting
/-!
All that is in a row of declarations, at any depth, and the types among it. Rows one after another
hold what each of them holds, and the order of a row does not matter but for the order of what it
holds.
-/
namespace DeclTree

namespace Declaration
variable {row others : List Declaration}

/-- The declarations of a row, each followed by those below it. -/
def flatten (row : List Declaration) : List Declaration := (visits (row.map (0, ·))).map (·.2)

/-- Depths do not decide on what is visited. -/
theorem map_snd_visits {stack stack' : List (Nat × Declaration)}
    (h : stack.map (·.2) = stack'.map (·.2)) :
    (visits stack).map (·.2) = (visits stack').map (·.2) := by
  fun_induction visits stack generalizing stack' with
  | case1 =>
    have hnil : stack' = [] := by simpa using h.symm
    rw [hnil, visits]
  | case2 depth d rest ih =>
    cases stack' with
    | nil => cases h
    | cons first rest' =>
      obtain ⟨depth', d'⟩ := first
      simp only [List.map_cons, List.cons.injEq] at h
      obtain ⟨rfl, hrest⟩ := h
      rw [visits, List.map_cons, List.map_cons]
      congr 1
      apply ih
      simp [hrest, Function.comp_def]

theorem map_snd_visits_eq_flatten (stack : List (Nat × Declaration)) :
    (visits stack).map (·.2) = flatten (stack.map (·.2)) :=
  map_snd_visits (by simp [Function.comp_def])

@[simp] theorem flatten_nil : flatten [] = [] := by simp [flatten, visits]

theorem flatten_cons (d : Declaration) (row : List Declaration) :
    flatten (d :: row) = d :: flatten (d.children ++ row) := by
  rw [flatten, List.map_cons, visits, List.map_cons, map_snd_visits_eq_flatten]
  simp [Function.comp_def]

theorem flatten_singleton (d : Declaration) : flatten [d] = d :: flatten d.children := by
  rw [flatten_cons, List.append_nil]

theorem flatten_eq_flatMap (row : List Declaration) :
    flatten row = row.flatMap fun d => (d.preorder 0).map (·.2) := by
  rw [flatten, visits_eq_flatMap, List.map_flatMap, List.flatMap_map]

@[simp] theorem flatten_append (row others : List Declaration) :
    flatten (row ++ others) = flatten row ++ flatten others := by
  simp [flatten_eq_flatMap]

theorem mem_flatten_nest (headers : List NamespaceHeader) {inner : List Declaration}
    {d : Declaration} (hd : d ∈ flatten inner) : d ∈ flatten (nest headers inner) := by
  induction headers with
  | nil => exact hd
  | cons header headers ih =>
    rw [nest, flatten_singleton]
    exact List.mem_cons_of_mem _ ih

theorem flatten_perm (h : row.Perm others) : (flatten row).Perm (flatten others) := by
  rw [flatten_eq_flatMap, flatten_eq_flatMap]
  exact h.flatMap_right _

theorem length_visits (stack : List (Nat × Declaration)) :
    (visits stack).length = sizes (stack.map (·.2)) := by
  fun_induction visits stack with
  | case1 => rfl
  | case2 depth d rest ih =>
    rw [List.length_cons, ih, List.map_append, sizes_append, List.map_cons, sizes, size_eq]
    simp only [List.map_map, Function.comp_def, List.map_id']
    omega

theorem length_flatten (row : List Declaration) : (flatten row).length = sizes row := by
  rw [flatten, List.length_map, length_visits]
  simp [Function.comp_def]

theorem sizes_perm (h : row.Perm others) : sizes row = sizes others := by
  rw [← length_flatten, ← length_flatten]
  exact (flatten_perm h).length_eq

def types (row : List Declaration) : List TypeDeclaration := (flatten row).filterMap (·.type?)

@[simp] theorem types_nil : types [] = [] := by simp [types]

@[simp] theorem types_append (row others : List Declaration) :
    types (row ++ others) = types row ++ types others := by
  simp [types]

theorem types_cons (d : Declaration) (row : List Declaration) :
    types (d :: row) = types [d] ++ types row :=
  types_append [d] row

theorem types_perm (h : row.Perm others) : (types row).Perm (types others) :=
  (flatten_perm h).filterMap _

theorem types_namespaceDecl (header : NamespaceHeader) (inner : List Declaration) :
    types [.namespaceDecl header inner] = types inner := by
  simp [types, flatten_cons, type?, children]

theorem types_typeDecl (header : TypeHeader) (inner : List TypeDeclaration) :
    types [.typeDecl (.mk header inner)] = .mk header inner :: types (inner.map .typeDecl) := by
  simp [types, flatten_cons, type?, children, TypeDeclaration.children]

theorem types_nest (headers : List NamespaceHeader) (inner : List Declaration) :
    types (nest headers inner) = types inner := by
  induction headers with
  | nil => rfl
  | cons header headers ih => rw [nest, types_namespaceDecl, ih]

section Leaves
variable {leaves : List TypeDeclaration}

theorem types_leaves (h : ∀ ty ∈ leaves, ty.children = []) :
    types (leaves.map .typeDecl) = leaves := by
  induction leaves with
  | nil => exact types_nil
  | cons ty rest ih =>
    cases ty with
    | mk header inner =>
      have hinner : inner = [] := h _ List.mem_cons_self
      have hrest := ih fun ty hty => h ty (List.mem_cons_of_mem _ hty)
      rw [List.map_cons, ← List.singleton_append, types_append, hrest, types_typeDecl, hinner]
      simp

theorem sizes_leaves (h : ∀ ty ∈ leaves, ty.children = []) :
    sizes (leaves.map .typeDecl) = leaves.length := by
  rw [sizes_map_typeDecl]
  induction leaves with
  | nil => rfl
  | cons ty rest ih =>
    cases ty with
    | mk header inner =>
      have hinner : inner = [] := h _ List.mem_cons_self
      have hrest := ih fun ty hty => h ty (List.mem_cons_of_mem _ hty)
      simp only [TypeDeclaration.sizes, TypeDeclaration.size, hinner, hrest, List.length_cons]
      omega

end Leaves

/-- A row apart into its namespaces and its types. -/
theorem perm_namespaces_types (row : List Declaration) :
    List.Perm (row.filter (·.type?.isNone) ++ (row.filterMap (·.type?)).map typeDecl) row := by
  induction row with
  | nil => exact .refl _
  | cons d row ih =>
    cases d with
    | namespaceDecl header inner => exact .cons _ ih
    | typeDecl ty => exact List.perm_middle.trans (.cons _ ih)

end Declaration

namespace RootDeclaration

theorem declarations_eq_flatten (r : RootDeclaration) :
    r.declarations = Declaration.flatten r.children := by
  rw [declarations, outline, Declaration.map_snd_visits_eq_flatten]
  simp [Function.comp_def]

theorem declarationCount_eq_sizes (r : RootDeclaration) :
    r.declarationCount = Declaration.sizes r.children := by
  rw [declarationCount, Declaration.countFrom_eq, Declaration.sizes_reverse, Nat.zero_add]

end RootDeclaration

end DeclTree
