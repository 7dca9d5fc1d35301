import DeclTree.Declaration.Hints
import DeclTree.Syntax.Tree
import DeclTree.Proofs.Preorder
/-!
Arenas whose links lead to lower indices, as they do when every node is added after its parts. Walks
along such links end, and the budget of an arena is enough for them.
-/
namespace DeclTree

namespace Arena
variable {a : Arena}

/-- Links lead to lower indices, but for those that name no node. Nodes may be shared. -/
def Descends (a : Arena) : Prop :=
  ∀ i j, j ∈ a.links i → (a.get? j).isSome → j.toNat < i.toNat

/-- How far up in the arena an index is; what names no node is below every node. -/
def rank (a : Arena) (i : NodeIndex) : Nat := if (a.get? i).isSome then i.toNat + 1 else 0

theorem rank_of_get? {i : NodeIndex} {h : Header} (hget : a.get? i = some h) :
    a.rank i = i.toNat + 1 := by
  simp [rank, hget]

theorem lt_size_of_get? {i : NodeIndex} {h : Header} (hget : a.get? i = some h) :
    i.toNat < a.size := by
  unfold get? at hget
  split at hget
  · cases hget
  · exact (Array.getElem?_eq_some_iff.1 hget).1

theorem rank_le_size (a : Arena) (i : NodeIndex) : a.rank i ≤ a.size := by
  cases hget : a.get? i with
  | none => simp [rank, hget]
  | some h =>
    have hlt := lt_size_of_get? hget
    rw [rank_of_get? hget]
    omega

theorem links_eq_nil_of_get? {i : NodeIndex} (hget : a.get? i = none) : a.links i = [] := by
  simp [links, kindOf?, hget]

theorem links_of_payload? {i : NodeIndex} {s : Shape} {d : s.Data}
    (hd : a.payload? s i = some d) : a.links i = s.links d := by
  simp [links, shape?_of_payload? hd, hd]

theorem exists_payload?_of_mem_links {i j : NodeIndex} (hj : j ∈ a.links i) :
    ∃ (s : Shape) (d : s.Data), a.payload? s i = some d ∧ j ∈ s.links d := by
  unfold links at hj
  split at hj
  · rename_i s _
    cases hd : a.payload? s i with
    | none => simp [hd] at hj
    | some d => exact ⟨s, d, hd, by simpa [hd] using hj⟩
  · cases hj

theorem Descends.lowers (h : a.Descends) : Walk.Lowers a.links a.rank := by
  intro i j hj
  cases hi : a.get? i with
  | none =>
    rw [links_eq_nil_of_get? hi] at hj
    cases hj
  | some hd =>
    rw [rank_of_get? hi]
    cases hget : a.get? j with
    | none => simp [rank, hget]
    | some hd' =>
      have hlt := h i j hj (by simp [hget])
      rw [rank_of_get? hget]
      omega

theorem ofNat_toNat (i : NodeIndex) : NodeIndex.ofNat i.toNat = i := by
  cases i
  simp [NodeIndex.ofNat, NodeIndex.toNat]

theorem length_links_le (a : Arena) (i : NodeIndex) : (a.links i).length ≤ a.linkCount := by
  cases hget : a.get? i with
  | none => simp [links_eq_nil_of_get? hget]
  | some h =>
    have hmem : i.toNat ∈ List.range a.size := List.mem_range.2 (lt_size_of_get? hget)
    obtain ⟨before, after, hsplit⟩ := List.append_of_mem hmem
    simp only [linkCount, hsplit, List.flatMap_append, List.flatMap_cons, List.length_append,
      ofNat_toNat]
    omega

theorem descends_iff : a.Descends ↔ ∀ n < a.size, ∀ j ∈ a.links (.ofNat n),
    (a.get? j).isSome → j.toNat < (NodeIndex.ofNat n).toNat := by
  refine ⟨fun h n _ j hj hget => h (.ofNat n) j hj hget, fun h i j hj hget => ?_⟩
  cases hi : a.get? i with
  | none =>
    rw [links_eq_nil_of_get? hi] at hj
    cases hj
  | some hd =>
    have hlt := h i.toNat (lt_size_of_get? hi) j
    rw [ofNat_toNat] at hlt
    exact hlt hj hget

instance : Decidable a.Descends := decidable_of_iff _ descends_iff.symm

section Walk
variable {next : NodeIndex → NodeList}

theorem Descends.lowers_of_sublist (h : a.Descends)
    (hnext : ∀ i, (next i).Sublist (a.links i)) : Walk.Lowers next a.rank :=
  fun i j hj => h.lowers i j ((hnext i).subset hj)

/-- Where links lower the rank and are no more than those of the arena, its budget is enough. -/
theorem visited?_of_lowers (hlowers : Walk.Lowers next a.rank)
    (hlength : ∀ i, (next i).length ≤ (a.links i).length) (roots : NodeList) {n : Nat}
    (hn : a.walkBudget roots ≤ n) :
    ∃ visits, Walk.Preorder next roots visits ∧ Walk.visited? next n roots = some visits := by
  obtain ⟨visits, hvisits⟩ := hlowers.exists_preorder roots
  have hbase (i : NodeIndex) : (next i).length < roots.length + a.linkCount + 2 := by
    have := hlength i
    have := a.length_links_le i
    omega
  have hcount : visits.length ≤
      roots.length * Nat.pow (roots.length + a.linkCount + 2) a.size :=
    hvisits.length_le hlowers hbase fun i _ => a.rank_le_size i
  have hbudget : roots.length * Nat.pow (roots.length + a.linkCount + 2) a.size ≤
      a.walkBudget roots := by
    rw [Nat.mul_comm]
    exact Nat.mul_le_mul_left _ (by omega)
  exact ⟨visits, hvisits, hvisits.visited?_eq (Nat.le_trans hcount (Nat.le_trans hbudget hn))⟩

theorem Descends.visited?_walkBudget (h : a.Descends)
    (hnext : ∀ i, (next i).Sublist (a.links i)) (roots : NodeList) :
    ∃ visits, Walk.Preorder next roots visits ∧
      Walk.visited? next (a.walkBudget roots) roots = some visits :=
  visited?_of_lowers (h.lowers_of_sublist hnext) (fun i => (hnext i).length_le) roots
    (Nat.le_refl _)

end Walk

theorem namespaceMembers_sublist (a : Arena) (i : NodeIndex) :
    (a.namespaceMembers i).Sublist (a.links i) := by
  unfold namespaceMembers
  cases hd : a.payload? .namespaceDecl i with
  | none => exact List.nil_sublist _
  | some d =>
    rw [links_of_payload? hd]
    exact List.sublist_append_right _ _

theorem innerStatements_sublist (a : Arena) (i : NodeIndex) :
    (a.innerStatements i).Sublist (a.links i) := by
  unfold innerStatements
  split
  · split
    · exact List.nil_sublist _
    · cases hd : a.payload? .composite i with
      | none => exact List.nil_sublist _
      | some d =>
        rw [links_of_payload? hd]
        exact List.Sublist.refl _
  · exact List.nil_sublist _

theorem fileAliasHints?_of_payload {unit : NodeIndex} {d : Syntax.CompilationUnit}
    (hd : a.payload? .compilationUnit unit = some d) : a.fileAliasHints? unit =
      (Walk.visited? a.namespaceMembers (a.walkBudget d.members) d.members).map fun visits =>
        a.aliasHints d.usings false ∪
          .unions (fun i => a.aliasHints (a.namespaceUsings i) false) visits := by
  rw [fileAliasHints?, hd, Option.map_eq_bind]
  rfl

theorem Descends.fileAliasHints?_isSome (h : a.Descends) (unit : NodeIndex) :
    (a.fileAliasHints? unit).isSome := by
  cases hd : a.payload? .compilationUnit unit with
  | none => simp [fileAliasHints?, hd]
  | some d =>
    obtain ⟨visits, -, hwalk⟩ := h.visited?_walkBudget a.namespaceMembers_sublist d.members
    rw [fileAliasHints?_of_payload hd, hwalk]
    rfl

/-- The nodes of a file with an enum in a class in a namespace. -/
def sample : Arena :=
  let a : Arena := {}
  let a := (a.add .identifier .identifierToken ⟨22, 23⟩ (⟨"C"⟩ : Syntax.Identifier)).2
  let a := (a.add .enumDecl .enumDeclaration ⟨17, 26⟩
    ({ identifier := .ofNat 0 } : Syntax.EnumDecl)).2
  let a := (a.add .identifier .identifierToken ⟨13, 14⟩ (⟨"B"⟩ : Syntax.Identifier)).2
  let a := (a.add .typeDecl .classDeclaration ⟨12, 28⟩
    ({ identifier := .ofNat 2, members := [.ofNat 1] } : Syntax.TypeDecl)).2
  let a := (a.add .identifier .identifierName ⟨10, 11⟩ (⟨"A"⟩ : Syntax.Identifier)).2
  let a := (a.add .namespaceDecl .namespaceDeclaration ⟨0, 30⟩
    ({ name := .ofNat 4, members := [.ofNat 3] } : Syntax.Namespace)).2
  (a.add .compilationUnit .compilationUnit ⟨0, 31⟩
    ({ members := [.ofNat 5] } : Syntax.CompilationUnit)).2

theorem sample_descends : sample.Descends := by decide +kernel

/-- The nodes of a file with a class, a namespace `A.B` with a class in it, a method and a statement. -/
def sampleMixed : Arena :=
  let a : Arena := {}
  let a := (a.add .identifier .identifierToken ⟨6, 7⟩ (⟨"D"⟩ : Syntax.Identifier)).2
  let a := (a.add .typeDecl .classDeclaration ⟨0, 11⟩
    ({ identifier := .ofNat 0 } : Syntax.TypeDecl)).2
  let a := (a.add .identifier .identifierName ⟨22, 23⟩ (⟨"A"⟩ : Syntax.Identifier)).2
  let a := (a.add .identifier .identifierName ⟨24, 25⟩ (⟨"B"⟩ : Syntax.Identifier)).2
  let a := (a.add .qualifiedName .qualifiedName ⟨22, 25⟩
    (⟨.ofNat 2, .ofNat 3⟩ : Syntax.QualifiedName)).2
  let a := (a.add .identifier .identifierToken ⟨34, 35⟩ (⟨"C"⟩ : Syntax.Identifier)).2
  let a := (a.add .typeDecl .classDeclaration ⟨28, 39⟩
    ({ identifier := .ofNat 5 } : Syntax.TypeDecl)).2
  let a := (a.add .namespaceDecl .namespaceDeclaration ⟨12, 41⟩
    ({ name := .ofNat 4, members := [.ofNat 6] } : Syntax.Namespace)).2
  let a := (a.add .identifier .identifierToken ⟨47, 48⟩ (⟨"M"⟩ : Syntax.Identifier)).2
  let a := (a.add .method .methodDeclaration ⟨42, 54⟩
    ({ identifier := .ofNat 8 } : Syntax.Method)).2
  let a := (a.add .globalStatement .globalStatement ⟨55, 59⟩ ({} : Syntax.GlobalStatement)).2
  (a.add .compilationUnit .compilationUnit ⟨0, 60⟩
    ({ members := [.ofNat 1, .ofNat 7, .ofNat 9, .ofNat 10] } : Syntax.CompilationUnit)).2

theorem sampleMixed_descends : sampleMixed.Descends := by decide +kernel

end Arena

/-- A file with an enum in a class in a namespace. -/
def SyntaxTree.sample : SyntaxTree := ⟨⟨0⟩, "sample.cs", {}, .sample, .ofNat 6⟩

/-- A file with a class, a namespace `A.B` with a class in it, a method and a statement. -/
def SyntaxTree.sampleMixed : SyntaxTree := ⟨⟨0⟩, "mixed.cs", {}, .sampleMixed, .ofNat 11⟩

end DeclTree
