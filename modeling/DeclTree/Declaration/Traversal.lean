import DeclTree.Declaration.Basic
/-!
Traversals in pre-order, given twice: by recursion on the declarations, and with a stack of pending
ones, which is what runs. Each of the three loops has its own stack; the main statements are that
what they list, count and gather is what the recursion gives.
-/
namespace DeclTree

namespace TypeDeclaration

mutual
/-- A type and the types below it, each with its depth. -/
def preorder (depth : Nat) : TypeDeclaration → List (Nat × Declaration)
  | mk header inner => (depth, .typeDecl (mk header inner)) :: preorders (depth + 1) inner

def preorders (depth : Nat) : List TypeDeclaration → List (Nat × Declaration)
  | [] => []
  | t :: ts => t.preorder depth ++ preorders depth ts
end

end TypeDeclaration

namespace Declaration

mutual
/-- A declaration and the declarations below it, each with its depth. -/
def preorder (depth : Nat) : Declaration → List (Nat × Declaration)
  | namespaceDecl header inner =>
    (depth, namespaceDecl header inner) :: preorders (depth + 1) inner
  | typeDecl t => t.preorder depth

def preorders (depth : Nat) : List Declaration → List (Nat × Declaration)
  | [] => []
  | d :: ds => d.preorder depth ++ preorders depth ds
end

/-- The declarations that are pending on a stack. -/
def pending (stack : List (Nat × Declaration)) : Nat := sizes (stack.map (·.2))

/-- Visits the declarations of a stack from the top down. The children of a declaration go on top
of the stack in its place, so every step leaves one declaration less pending. -/
def visits : List (Nat × Declaration) → List (Nat × Declaration)
  | [] => []
  | (depth, d) :: rest => (depth, d) :: visits (d.children.map (depth + 1, ·) ++ rest)
  termination_by stack => pending stack
  decreasing_by
    simp [pending, sizes_append, sizes, size_eq d, Function.comp_def]

theorem sizes_reverse (ds : List Declaration) : sizes ds.reverse = sizes ds := by
  induction ds with
  | nil => rfl
  | cons d ds ih =>
    rw [List.reverse_cons, sizes_append, ih]
    simp [sizes, Nat.add_comm]

/-- Counts the declarations of a stack. The order in which they come off it does not matter here, and
children go on top last one first. -/
def countFrom (count : Nat) : List Declaration → Nat
  | [] => count
  | d :: rest => countFrom (count + 1) (d.children.reverse ++ rest)
  termination_by stack => sizes stack
  decreasing_by
    simp [sizes_append, sizes_reverse, sizes, size_eq d]

/-- Gathers the diagnostics of a stack from the top down. -/
def gather (found : List Diagnostic) : List Declaration → List Diagnostic
  | [] => found
  | d :: rest => gather (found ++ d.diagnostics) (d.children ++ rest)
  termination_by stack => sizes stack
  decreasing_by
    simp [sizes_append, sizes, size_eq d]

theorem preorders_map_typeDecl (depth : Nat) (ts : List TypeDeclaration) :
    preorders depth (ts.map typeDecl) = TypeDeclaration.preorders depth ts := by
  induction ts with
  | nil => rfl
  | cons t ts ih => simp [preorders, preorder, TypeDeclaration.preorders, ih]

theorem preorder_eq (depth : Nat) (d : Declaration) :
    d.preorder depth = (depth, d) :: preorders (depth + 1) d.children := by
  cases d with
  | namespaceDecl header inner => simp [preorder, children]
  | typeDecl t =>
    cases t with
    | mk header inner =>
      simp [preorder, children, TypeDeclaration.preorder, TypeDeclaration.children,
        preorders_map_typeDecl]

theorem flatMap_preorder_eq_preorders (depth : Nat) (ds : List Declaration) :
    ((ds.map (depth, ·)).flatMap fun p => p.2.preorder p.1) = preorders depth ds := by
  induction ds with
  | nil => rfl
  | cons d ds ih => simp_all [preorders]

theorem visits_eq_flatMap (stack : List (Nat × Declaration)) :
    visits stack = stack.flatMap fun p => p.2.preorder p.1 := by
  fun_induction visits stack with
  | case1 => rfl
  | case2 depth d rest ih =>
    rw [ih, List.flatMap_append, flatMap_preorder_eq_preorders, List.flatMap_cons, preorder_eq]
    rfl

theorem countFrom_eq (count : Nat) (stack : List Declaration) :
    countFrom count stack = count + sizes stack := by
  fun_induction countFrom count stack with
  | case1 => rfl
  | case2 count d rest ih =>
    rw [ih, sizes_append, sizes_reverse, sizes, size_eq]
    omega

theorem gather_eq (found : List Diagnostic) (stack : List (Nat × Declaration)) :
    gather found (stack.map (·.2)) = found ++ (visits stack).flatMap fun p => p.2.diagnostics := by
  fun_induction visits stack generalizing found with
  | case1 => simp [gather]
  | case2 depth d rest ih =>
    have hstack : d.children ++ rest.map (·.2) =
        (d.children.map (depth + 1, ·) ++ rest).map (·.2) := by
      simp [Function.comp_def]
    rw [List.map_cons, gather, hstack, ih, List.flatMap_cons, List.append_assoc]

end Declaration

namespace RootDeclaration

/-- Every declaration below the root in pre-order, with its depth. The root's children have depth
one. -/
def outline (r : RootDeclaration) : List (Nat × Declaration) :=
  Declaration.visits (r.children.map (1, ·))

theorem outline_eq_preorders (r : RootDeclaration) :
    r.outline = Declaration.preorders 1 r.children := by
  rw [outline, Declaration.visits_eq_flatMap, Declaration.flatMap_preorder_eq_preorders]

/-- Every declaration below the root in pre-order. -/
def declarations (r : RootDeclaration) : List Declaration := r.outline.map (·.2)

/-- The number of declarations below the root. -/
def declarationCount (r : RootDeclaration) : Nat := Declaration.countFrom 0 r.children.reverse

/-- The diagnostics of the root, and then those of each declaration in pre-order. -/
def allDiagnostics (r : RootDeclaration) : List Diagnostic :=
  Declaration.gather r.diagnostics r.children

theorem allDiagnostics_eq_flatMap (r : RootDeclaration) :
    r.allDiagnostics = r.diagnostics ++ r.declarations.flatMap (·.diagnostics) := by
  have hchildren : r.children = (r.children.map fun d => (1, d)).map (·.2) := by
    simp [Function.comp_def]
  rw [allDiagnostics, hchildren, Declaration.gather_eq, declarations, outline, List.flatMap_map]

def hasErrors (r : RootDeclaration) : Bool := r.allDiagnostics.any (·.isError)

end RootDeclaration

end DeclTree
