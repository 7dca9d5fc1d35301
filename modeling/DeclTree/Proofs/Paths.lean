import DeclTree.Declaration.Lookup
import DeclTree.Declaration.Traversal
import DeclTree.Proofs.Nesting
/-!
Which type a dotted path finds. Every declaration below a root has the names that lead to it, from a
child of the root down; in pre-order, the type found is the first one to which the segments of the
path lead. That the search goes on below all declarations of one name, level by level, makes no
difference.
-/
namespace DeclTree

/-- A declaration with the names that lead to it. -/
abbrev Path := List String × Declaration

/-- The path as seen from above a declaration with the name. -/
def Path.below (name : String) (p : Path) : Path := (name :: p.1, p.2)

/-- The type at the end of a path, if the path consists of the names. -/
def Path.typeAt? (names : List String) (p : Path) : Option TypeDeclaration :=
  if p.1 = names then p.2.type? else none

theorem Path.typeAt?_eq_some {names : List String} {p : Path} {ty : TypeDeclaration} :
    p.typeAt? names = some ty ↔ p = (names, .typeDecl ty) := by
  obtain ⟨chain, d⟩ := p
  cases d <;> simp [Path.typeAt?, Declaration.type?]

namespace TypeDeclaration

mutual
/-- A type and the types below it in pre-order, with the names that lead to them. -/
def paths : TypeDeclaration → List Path
  | mk header inner =>
    ([header.name], .typeDecl (mk header inner)) :: (rowPaths inner).map (Path.below header.name)

def rowPaths : List TypeDeclaration → List Path
  | [] => []
  | t :: ts => t.paths ++ rowPaths ts
end

end TypeDeclaration

namespace Declaration

mutual
/-- A declaration and the declarations below it in pre-order, with the names that lead to them. -/
def paths : Declaration → List Path
  | namespaceDecl header inner =>
    ([header.name], namespaceDecl header inner) :: (rowPaths inner).map (Path.below header.name)
  | typeDecl t => t.paths

def rowPaths : List Declaration → List Path
  | [] => []
  | d :: ds => d.paths ++ rowPaths ds
end

variable {row others : List Declaration} {name : String} {names : List String}

theorem rowPaths_map_typeDecl (ts : List TypeDeclaration) :
    rowPaths (ts.map typeDecl) = TypeDeclaration.rowPaths ts := by
  induction ts with
  | nil => rfl
  | cons t ts ih => simp [rowPaths, paths, TypeDeclaration.rowPaths, ih]

theorem paths_eq (d : Declaration) :
    d.paths = ([d.name], d) :: (rowPaths d.children).map (Path.below d.name) := by
  cases d with
  | namespaceDecl header inner => simp [paths, children, name]
  | typeDecl t =>
    cases t with
    | mk header inner =>
      simp [paths, children, name, TypeDeclaration.paths, TypeDeclaration.children,
        TypeDeclaration.header, rowPaths_map_typeDecl]

theorem rowPaths_eq_flatMap (row : List Declaration) : rowPaths row = row.flatMap (·.paths) := by
  induction row with
  | nil => rfl
  | cons d row ih => rw [rowPaths, ih, List.flatMap_cons]

theorem rowPaths_append (row others : List Declaration) :
    rowPaths (row ++ others) = rowPaths row ++ rowPaths others := by
  simp only [rowPaths_eq_flatMap, List.flatMap_append]

/-- A declaration is as deep as the names that lead to it are many. -/
theorem visits_eq_paths (stack : List (Nat × Declaration)) :
    visits stack =
      stack.flatMap fun entry => entry.2.paths.map fun p => (entry.1 + p.1.length - 1, p.2) := by
  fun_induction visits stack with
  | case1 => rfl
  | case2 depth d rest ih =>
    have hchildren : ((d.children.map (depth + 1, ·)).flatMap fun entry =>
        entry.2.paths.map fun p => (entry.1 + p.1.length - 1, p.2)) =
          (rowPaths d.children).map fun p => (depth + p.1.length, p.2) := by
      rw [List.flatMap_map, rowPaths_eq_flatMap, List.map_flatMap]
      simp [Nat.add_right_comm depth 1]
    rw [ih, List.flatMap_append, hchildren, List.flatMap_cons, paths_eq]
    simp [Path.below, Function.comp_def, ← Nat.add_assoc]

theorem ne_nil_of_mem_rowPaths {p : Path} (h : p ∈ rowPaths row) : p.1 ≠ [] := by
  induction row with
  | nil => cases h
  | cons d row ih =>
    rw [rowPaths, paths_eq] at h
    rcases List.mem_append.1 h with h | h
    · rcases List.mem_cons.1 h with rfl | h
      · exact List.cons_ne_nil _ _
      · obtain ⟨q, -, rfl⟩ := List.mem_map.1 h
        exact List.cons_ne_nil _ _
    · exact ih h

/-! ### The search -/

theorem descend_cons (name : String) (d : Declaration) (row : List Declaration) :
    descend name (d :: row) = (if d.name = name then d.children else []) ++ descend name row := by
  by_cases h : d.name = name <;> simp [descend, h]

theorem typeNamed?_cons (name : String) (d : Declaration) (row : List Declaration) :
    typeNamed? name (d :: row) =
      (if d.name = name then d.type? else none).or (typeNamed? name row) := by
  by_cases h : d.name = name <;> simp [typeNamed?, h, List.findSome?_cons]
  cases d.type? <;> rfl

theorem typeAt?_below (outer name : String) (names : List String) (p : Path) :
    (p.below outer).typeAt? (name :: names) = if outer = name then p.typeAt? names else none := by
  by_cases h : outer = name <;> simp [Path.below, Path.typeAt?, h]

/-- Below a declaration a longer path goes on if the declaration has the first name. -/
theorem findSome?_below (outer name : String) (names : List String) (paths : List Path) :
    (paths.map (Path.below outer)).findSome? (Path.typeAt? (name :: names)) =
      if outer = name then paths.findSome? (Path.typeAt? names) else none := by
  rw [List.findSome?_map]
  by_cases h : outer = name
  · rw [if_pos h]
    exact congrArg (paths.findSome? ·) (funext fun p => by simp [typeAt?_below, h])
  · simp [Function.comp_def, typeAt?_below, h]

theorem findSome?_nil_names (row : List Declaration) :
    (rowPaths row).findSome? (Path.typeAt? []) = none :=
  List.findSome?_eq_none_iff.2 fun _ hp => if_neg (ne_nil_of_mem_rowPaths hp)

theorem findSome?_one_name (name : String) (row : List Declaration) :
    (rowPaths row).findSome? (Path.typeAt? [name]) = typeNamed? name row := by
  induction row with
  | nil => rfl
  | cons d row ih =>
    have hhead : Path.typeAt? [name] ([d.name], d) = if d.name = name then d.type? else none := by
      simp [Path.typeAt?]
    rw [rowPaths, List.findSome?_append, ih, typeNamed?_cons, paths_eq, List.findSome?_cons, hhead,
      findSome?_below, findSome?_nil_names, ite_self]
    cases (if d.name = name then d.type? else none) <;> rfl

theorem findSome?_descend (hne : names ≠ []) (name : String) (row : List Declaration) :
    (rowPaths row).findSome? (Path.typeAt? (name :: names)) =
      (rowPaths (descend name row)).findSome? (Path.typeAt? names) := by
  induction row with
  | nil => rfl
  | cons d row ih =>
    have hhead : Path.typeAt? (name :: names) ([d.name], d) = none := by
      simp [Path.typeAt?, hne.symm]
    rw [rowPaths, List.findSome?_append, ih, paths_eq, List.findSome?_cons, hhead, findSome?_below,
      descend_cons, rowPaths_append, List.findSome?_append]
    by_cases h : d.name = name <;> simp [h, rowPaths]

theorem find?_eq_findSome? (row : List Declaration) (names : List String) :
    find? row names = (rowPaths row).findSome? (Path.typeAt? names) := by
  fun_induction find? row names with
  | case1 row => rw [findSome?_nil_names]
  | case2 row name => rw [findSome?_one_name]
  | case3 row name names hnames ih => rw [ih, findSome?_descend fun h => hnames h]

/-! ### Rows and chains -/

theorem typeNamed?_append (name : String) (row others : List Declaration) :
    typeNamed? name (row ++ others) = (typeNamed? name row).or (typeNamed? name others) := by
  rw [typeNamed?, List.filter_append, List.findSome?_append]
  rfl

theorem typeNamed?_eq_none (h : ∀ d ∈ row, d.type?.map (·.header.name) ≠ some name) :
    typeNamed? name row = none := by
  refine List.findSome?_eq_none_iff.2 fun d hd => ?_
  obtain ⟨hd, hname⟩ := List.mem_filter.1 hd
  cases d with
  | namespaceDecl => rfl
  | typeDecl ty =>
    refine absurd ?_ (h _ hd)
    simpa [type?, Declaration.name] using hname

theorem find?_cons (row : List Declaration) (first : String) (hnames : names ≠ []) :
    find? row (first :: names) = find? (descend first row) names := by
  cases names with
  | nil => exact absurd rfl hnames
  | cons second rest => rfl

/-- Only the declarations with the first name count. -/
theorem find?_eq_filter (row : List Declaration) (first : String) (names : List String) :
    find? row (first :: names) = find? (row.filter (·.name == first)) (first :: names) := by
  cases names with
  | nil => simp [find?, typeNamed?]
  | cons second rest => simp [find?_cons _ first (List.cons_ne_nil second rest), descend]

theorem filter_eq_nil_of_ne (hother : ∀ d ∈ others, d.name ≠ name) :
    others.filter (·.name == name) = [] :=
  List.filter_eq_nil_iff.2 fun d hd => by simp [hother d hd]

/-- Declarations of other names do not come into the way of a path. -/
theorem find?_append_of_ne (hother : ∀ d ∈ others, d.name ≠ name) (names : List String) :
    find? (others ++ row) (name :: names) = find? row (name :: names) := by
  rw [find?_eq_filter, List.filter_append, filter_eq_nil_of_ne hother, List.nil_append,
    ← find?_eq_filter]

theorem find?_append_of_ne_right (hother : ∀ d ∈ others, d.name ≠ name) (names : List String) :
    find? (row ++ others) (name :: names) = find? row (name :: names) := by
  rw [find?_eq_filter, List.filter_append, filter_eq_nil_of_ne hother, List.append_nil,
    ← find?_eq_filter]

/-- Along a chain of namespaces their names lead to what is within. -/
theorem find?_nest_append (headers : List NamespaceHeader) (inner : List Declaration)
    (hnames : names ≠ []) :
    find? (nest headers inner) (headers.map (·.name) ++ names) = find? inner names := by
  induction headers with
  | nil => rfl
  | cons header headers ih =>
    rw [List.map_cons, List.cons_append, nest, find?_cons _ _ (by simp [hnames]), descend_cons]
    simpa [Declaration.name, children, descend] using ih

end Declaration

namespace RootDeclaration

/-- Every declaration below the root in pre-order, with the names that lead to it. -/
def paths (r : RootDeclaration) : List Path := Declaration.rowPaths r.children

theorem outline_eq_paths (r : RootDeclaration) :
    r.outline = r.paths.map fun p => (p.1.length, p.2) := by
  rw [outline, Declaration.visits_eq_paths, List.flatMap_map, paths, Declaration.rowPaths_eq_flatMap,
    List.map_flatMap]
  simp

theorem findType?_eq_findSome? (r : RootDeclaration) (path : String) :
    r.findType? path = r.paths.findSome? (Path.typeAt? (Text.segments path)) :=
  Declaration.find?_eq_findSome? _ _

variable (r : RootDeclaration)

/-- The first type in pre-order to which the segments of the path lead. -/
theorem findType?_eq_some_iff (path : String) (ty : TypeDeclaration) :
    r.findType? path = some ty ↔ ∃ before after,
      r.paths = before ++ (Text.segments path, .typeDecl ty) :: after ∧
        ∀ other, (Text.segments path, .typeDecl other) ∉ before := by
  rw [findType?_eq_findSome?, List.findSome?_eq_some_iff]
  constructor
  · rintro ⟨before, p, after, hpaths, hp, hbefore⟩
    refine ⟨before, after, Path.typeAt?_eq_some.1 hp ▸ hpaths, fun other hmem => ?_⟩
    have hsome := Path.typeAt?_eq_some.2 (rfl : _ = (Text.segments path, Declaration.typeDecl other))
    exact absurd (hsome.symm.trans (hbefore _ hmem)) (by simp)
  · rintro ⟨before, after, hpaths, hbefore⟩
    refine ⟨before, _, after, hpaths, Path.typeAt?_eq_some.2 rfl, fun p hmem => ?_⟩
    refine Option.eq_none_iff_forall_ne_some.2 fun other hp => hbefore other ?_
    exact Path.typeAt?_eq_some.1 hp ▸ hmem

theorem findType?_eq_none_iff (path : String) :
    r.findType? path = none ↔ ∀ ty, (Text.segments path, .typeDecl ty) ∉ r.paths := by
  rw [findType?_eq_findSome?, List.findSome?_eq_none_iff]
  constructor
  · intro h ty hmem
    exact absurd ((Path.typeAt?_eq_some.2 rfl).symm.trans (h _ hmem)) (by simp)
  · intro h p hmem
    refine Option.eq_none_iff_forall_ne_some.2 fun ty hp => h ty ?_
    exact Path.typeAt?_eq_some.1 hp ▸ hmem

/-- Only a namesake before it hides a type from its own path. -/
theorem findType?_intercalate {before after : List Path} {names : List String}
    {ty : TypeDeclaration} (hpaths : r.paths = before ++ (names, .typeDecl ty) :: after)
    (hdots : ∀ name ∈ names, '.' ∉ name.toList) :
    ∃ found, r.findType? (".".intercalate names) = some found ∧
      (found = ty ∨ (names, .typeDecl found) ∈ before) := by
  have hmem : (names, .typeDecl ty) ∈ r.paths := by simp [hpaths]
  have hsegments : Text.segments (".".intercalate names) = names :=
    Text.segments_intercalate (Declaration.ne_nil_of_mem_rowPaths hmem) hdots
  rw [findType?_eq_findSome?, hsegments, hpaths, List.findSome?_append]
  cases hbefore : before.findSome? (Path.typeAt? names) with
  | none => exact ⟨ty, by simp [Path.typeAt?_eq_some.2], .inl rfl⟩
  | some found =>
    obtain ⟨p, hp, hfound⟩ := List.exists_of_findSome?_eq_some hbefore
    exact ⟨found, rfl, .inr (Path.typeAt?_eq_some.1 hfound ▸ hp)⟩

/-- Looking up a path finds the first type in pre-order with the names of the path, and finds one
whenever there is any. -/
theorem findType?_complete :
    (r.paths.map fun p => (p.1.length, p.2)) = Declaration.preorders 1 r.children ∧
    (∀ path ty, r.findType? path = some ty ↔ ∃ before after,
      r.paths = before ++ (Text.segments path, .typeDecl ty) :: after ∧
        ∀ other, (Text.segments path, .typeDecl other) ∉ before) ∧
    (∀ path, r.findType? path = none ↔ ∀ ty, (Text.segments path, .typeDecl ty) ∉ r.paths) ∧
    ∀ before after names ty, r.paths = before ++ (names, .typeDecl ty) :: after →
      (∀ name ∈ names, '.' ∉ name.toList) →
      ∃ found, r.findType? (".".intercalate names) = some found ∧
        (found = ty ∨ (names, .typeDecl found) ∈ before) := by
  refine ⟨?_, r.findType?_eq_some_iff, r.findType?_eq_none_iff, ?_⟩
  · rw [← outline_eq_paths, outline_eq_preorders]
  · exact fun _ _ _ _ hpaths hdots => r.findType?_intercalate hpaths hdots

/-- A class in the first bytes of a file. -/
def sampleClass (name : String) (arity : UInt32) (inner : List TypeDeclaration) : TypeDeclaration :=
  .mk { reference := ⟨⟨0⟩, .ofNat 0, ⟨0, 1⟩⟩, nameLocation := ⟨⟨0⟩, ⟨0, 1⟩⟩, kind := .classType,
        name, arity } inner

/-- The namespace `A` twice with a class `B` in it. The second class has a nested class without a
name. -/
def sampleNamesakes : RootDeclaration where
  reference := ⟨⟨0⟩, .ofNat 0, ⟨0, 1⟩⟩
  nameLocation := ⟨⟨0⟩, ⟨0, 1⟩⟩
  diagnostics := []
  hasGlobalUsings := false
  hasUsings := false
  hasExternAliases := false
  children :=
    let namespaceA (ty : TypeDeclaration) : Declaration :=
      .namespaceDecl ⟨⟨⟨0⟩, .ofNat 0, ⟨0, 1⟩⟩, ⟨⟨0⟩, ⟨0, 1⟩⟩, [], "A", false, false⟩ [.typeDecl ty]
    [namespaceA (sampleClass "B" 0 []), namespaceA (sampleClass "B" 1 [sampleClass "" 0 []])]
  referencedFiles := []
  hasAssemblyAttributes := false
  globalAliasHints := ∅

theorem sampleNamesakes_findType? :
    (∃ found, sampleNamesakes.findType? "A.B" = some found ∧
      (["A", "B"], .typeDecl found) ∈ sampleNamesakes.paths) ∧
    sampleNamesakes.findType? "A.B." = some (sampleClass "" 0 []) := by
  obtain ⟨-, -, -, hcomplete⟩ := findType?_complete sampleNamesakes
  have htwice : sampleNamesakes.paths = sampleNamesakes.paths.take 3 ++
      (["A", "B"], .typeDecl (sampleClass "B" 1 [sampleClass "" 0 []])) ::
        [(["A", "B", ""], .typeDecl (sampleClass "" 0 []))] := rfl
  have hlast : sampleNamesakes.paths = sampleNamesakes.paths.take 4 ++
      (["A", "B", ""], .typeDecl (sampleClass "" 0 [])) :: [] := rfl
  obtain ⟨found, hfound, hplace⟩ := hcomplete _ _ _ _ htwice (by decide)
  obtain ⟨nameless, hnameless, heq | hmem⟩ := hcomplete _ _ _ _ hlast (by decide)
  · refine ⟨⟨found, hfound, ?_⟩, heq ▸ hnameless⟩
    rcases hplace with rfl | hmem
    · exact htwice ▸ List.mem_append_right _ List.mem_cons_self
    · exact List.mem_of_mem_take hmem
  · have hnames : ["A", "B", ""] ∈ (sampleNamesakes.paths.take 4).map (·.1) :=
      List.mem_map_of_mem hmem
    exact absurd hnames (by decide)

end RootDeclaration

end DeclTree
