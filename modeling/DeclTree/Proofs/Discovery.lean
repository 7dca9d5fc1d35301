import DeclTree.Proofs.Loading
import DeclTree.Proofs.TreeIds
/-!
Which paths a run finds, and how the trees at these are told apart. The walk through a directory
reports files in an order of its own; the paths are sorted afterwards, so neither they nor anything
that a run makes of them depends on that order.
-/
namespace DeclTree

/-- The same entry, where a walk through it may report the files in another order. -/
inductive Entry.Relisted : Entry → Entry → Prop
  | file (content : ByteArray) : Relisted (.file content) (.file content)
  | directory {entries others : List (String × Entry)} :
      (Entry.directory entries).paths.Perm (Entry.directory others).paths →
      Relisted (.directory entries) (.directory others)

theorem Entry.Relisted.refl (entry : Entry) : entry.Relisted entry := by
  cases entry with
  | file content => exact .file content
  | directory entries => exact .directory (.refl _)

/-- The same files, where each walk may report them in another order. -/
def Files.Relisted (files others : Files) : Prop :=
  ∀ path, Option.Rel Entry.Relisted (files path) (others path)

namespace Entry

theorem pathsOf_eq_flatMap (entries : List (String × Entry)) :
    pathsOf entries = entries.flatMap fun entry => entry.2.paths.map (entry.1 :: ·) := by
  induction entries with
  | nil => rfl
  | cons entry entries ih =>
    rw [pathsOf, ih, List.flatMap_cons]

/-- The entries of a directory may be listed in any order. -/
theorem relisted_of_perm {entries others : List (String × Entry)} (h : entries.Perm others) :
    Relisted (directory entries) (directory others) := by
  refine .directory ?_
  rw [paths, paths, pathsOf_eq_flatMap, pathsOf_eq_flatMap]
  exact h.flatMap_right _

end Entry

/-- What a path leads to before and after. -/
theorem Files.Relisted.at_path {files others : Files} (h : files.Relisted others) (path : String) :
    (files path = none ∧ others path = none) ∨
    (∃ content, files path = some (.file content) ∧ others path = some (.file content)) ∨
    ∃ entries entries', files path = some (.directory entries) ∧
      others path = some (.directory entries') ∧
      (Entry.directory entries).paths.Perm (Entry.directory entries').paths := by
  have hrel := h path
  generalize files path = found at hrel ⊢
  generalize others path = found' at hrel ⊢
  cases hrel with
  | none => exact .inl ⟨rfl, rfl⟩
  | some hentry =>
    cases hentry with
    | file content => exact .inr (.inl ⟨content, rfl, rfl⟩)
    | directory hperm => exact .inr (.inr ⟨_, _, rfl, rfl, hperm⟩)

theorem pathLe_iff {p q : List String} : pathLe p q = true ↔ List.le p q := by
  simp [pathLe, List.le]

namespace Command
variable {files others : Files} {input : String} {row : List String}

theorem treesBelow_perm (directory : Entry) :
    (treesBelow directory).Perm (directory.paths.filter isTreePath) :=
  List.mergeSort_perm _ _

theorem pairwise_treesBelow (directory : Entry) : (treesBelow directory).Pairwise List.le := by
  have htrans (p q r : List String) (hpq : pathLe p q = true) (hqr : pathLe q r = true) :
      pathLe p r = true := by
    rw [pathLe_iff] at hpq hqr ⊢
    exact List.le_trans hpq hqr
  have htotal (p q : List String) : (pathLe p q || pathLe q p) = true := by
    rw [Bool.or_eq_true, pathLe_iff, pathLe_iff]
    exact List.le_total p q
  exact (List.pairwise_mergeSort htrans htotal _).imp pathLe_iff.1

/-- Paths in order are no others when the same ones are given in another order. -/
theorem eq_treesBelow {directory : Entry} {below : List (List String)}
    (hperm : below.Perm (directory.paths.filter isTreePath)) (hsorted : below.Pairwise List.le) :
    below = treesBelow directory :=
  List.Perm.eq_of_pairwise (fun _ _ _ _ hpq hqp => List.le_antisymm hpq hqp) hsorted
    (pairwise_treesBelow directory) (hperm.trans (treesBelow_perm directory).symm)

/-- What an input stands for: a file for itself, and a directory for the stored trees below it, in
the order of their paths. -/
inductive StandsFor (files : Files) (input : String) : List String → Prop
  | file {content : ByteArray} : files input = some (.file content) →
      StandsFor files input [input]
  | directory {entries : List (String × Entry)} {below : List (List String)} :
      files input = some (.directory entries) →
      below.Perm ((Entry.directory entries).paths.filter isTreePath) → below.Pairwise List.le →
      StandsFor files input (below.map (joinPath input))

theorem expand_eq_ok_iff : expand files input = .ok row ↔ StandsFor files input row := by
  constructor
  · intro h
    unfold expand at h
    split at h
    next content hfile =>
      cases h
      exact .file hfile
    next entries hdirectory =>
      cases h
      exact .directory hdirectory (treesBelow_perm _) (pairwise_treesBelow _)
    next => cases h
  · intro h
    cases h with
    | file hfile => simp only [expand, hfile]
    | directory hdirectory hperm hsorted =>
      simp only [expand, hdirectory, eq_treesBelow hperm hsorted]

section Relisting
variable (h : files.Relisted others)
include h

theorem expand_relisted (input : String) : expand others input = expand files input := by
  obtain ⟨hfile, hother⟩ | ⟨content, hfile, hother⟩ | ⟨entries, entries', hfile, hother, hperm⟩ :=
    h.at_path input
  · simp only [expand, hfile, hother]
  · simp only [expand, hfile, hother]
  · have hsame : treesBelow (.directory entries') = treesBelow (.directory entries) :=
      eq_treesBelow ((treesBelow_perm _).trans (hperm.symm.filter isTreePath))
        (pairwise_treesBelow _)
    simp only [expand, hfile, hother, hsame]

theorem textOf?_relisted (path : String) : textOf? others path = textOf? files path := by
  obtain ⟨hfile, hother⟩ | ⟨content, hfile, hother⟩ | ⟨entries, entries', hfile, hother, -⟩ :=
    h.at_path path <;>
  simp only [textOf?, hfile, hother]

theorem discover_relisted (inputs : List String) :
    discover others inputs = discover files inputs := by
  have hexpand : expand others = expand files := funext (expand_relisted h)
  rw [discover, discover, hexpand]

theorem load_relisted (a : Arguments) : load others a = load files a := by
  have htext : textOf? others = textOf? files := funext (textOf?_relisted h)
  simp only [load, discover_relisted h, loadSettings, loadConfig, loadTrees, loadNumbered, loadTree,
    htext]

end Relisting

theorem exists_rows {inputs : List String} (hexist : ∀ input ∈ inputs, (files input).isSome) :
    ∃ rows, inputs.mapM (expand files) = .ok rows := by
  induction inputs with
  | nil => exact ⟨[], rfl⟩
  | cons input inputs ih =>
    obtain ⟨rows, hrows⟩ := ih fun other hother => hexist other (List.mem_cons_of_mem input hother)
    obtain ⟨entry, hentry⟩ := Option.isSome_iff_exists.1 (hexist input List.mem_cons_self)
    obtain ⟨row, hrow⟩ : ∃ row, expand files input = .ok row := by
      cases entry <;> simp [expand, hentry]
    exact ⟨row :: rows, by rw [Outcome.mapM_cons, hrow, hrows]; rfl⟩

/-- The trees of a run, one for each path, and the results of the run are told apart by the places
of the paths. -/
structure Located (files : Files) (a : Arguments) (settings : Settings) (paths : List String)
    (trees : List SyntaxTree) (results : List FileResult) : Prop where
  runs : run files a = .ok (.ofFiles results)
  counts : trees.length = paths.length ∧ results.length = paths.length
  loaded : ∀ (n : Nat) (t : SyntaxTree), trees[n]? = some t → t.id.number.toNat = n ∧
    ∃ path, paths[n]? = some path ∧ loadTree files settings t.id path = .ok t
  places : ∀ (n : Nat) (file : FileResult) (r : RootDeclaration), results[n]? = some file →
    file.root = .ok r → ∃ id : TreeId, id.number.toNat = n ∧ r.LiesIn id
  /-- A reference of one result leads nowhere in the tree of another. -/
  apart : ∀ (n : Nat) (file : FileResult) (r : RootDeclaration) (m : Nat) (t : SyntaxTree),
    results[n]? = some file → file.root = .ok r → trees[m]? = some t → m ≠ n →
    ∀ reference ∈ r.references, t.resolve? reference = none

theorem located_of_load {a : Arguments} {settings : Settings} {paths : List String}
    {trees : List SyntaxTree} (hpaths : discover files a.inputs = .ok paths)
    (h : load files a = .ok (settings, trees)) :
    Located files a settings paths trees (declareFiles settings.declarations trees) := by
  obtain ⟨found, -, hfound, htrees⟩ := load_eq_ok h
  rw [hpaths] at hfound
  cases hfound
  have hlength := length_of_loadTrees htrees
  have hids (n : Nat) (t : SyntaxTree) (ht : trees[n]? = some t) : t.id.number.toNat = n := by
    obtain ⟨path, -, hload⟩ := exists_path_of_loadTrees htrees ht
    exact (loadNumbered_eq_ok hload).1
  have hresults (n : Nat) (file : FileResult) (r : RootDeclaration)
      (hfile : (declareFiles settings.declarations trees)[n]? = some file)
      (hroot : file.root = .ok r) : ∃ id : TreeId, id.number.toNat = n ∧ r.LiesIn id := by
    rw [declareFiles, List.getElem?_map] at hfile
    obtain ⟨t, ht, rfl⟩ := Option.map_eq_some_iff.1 hfile
    exact ⟨t.id, hids n t ht, SyntaxTree.liesIn_of_declare hroot⟩
  constructor
  · exact run_of_load h
  · exact ⟨hlength, by rw [declareFiles, List.length_map, hlength]⟩
  · intro n t ht
    obtain ⟨path, hpath, hload⟩ := exists_path_of_loadTrees htrees ht
    exact ⟨hids n t ht, path, hpath, (loadNumbered_eq_ok hload).2⟩
  · exact hresults
  · intro n file r m t hfile hroot ht hmn reference hreference
    obtain ⟨id, hid, hlies⟩ := hresults n file r hfile hroot
    refine SyntaxTree.resolve?_of_tree_ne fun hsame => hmn ?_
    rw [← hids m t ht, ← hsame, hlies.references reference hreference, hid]

/-- The paths that inputs stand for are the same in whatever order walks report files, and so is all
that a run makes of them; where the trees at the paths are loaded, their places tell them apart. -/
theorem discover_reproducible (a : Arguments)
    (hexist : ∀ input ∈ a.inputs, (files input).isSome) :
    ∃ rows, List.Forall₂ (StandsFor files) a.inputs rows ∧
      discover files a.inputs = .ok rows.flatten ∧
      (∀ others, files.Relisted others →
        discover others a.inputs = .ok rows.flatten ∧ load others a = load files a ∧
          run others a = run files a) ∧
      ∀ settings trees, load files a = .ok (settings, trees) →
        Located files a settings rows.flatten trees (declareFiles settings.declarations trees) := by
  obtain ⟨rows, hrows⟩ := exists_rows hexist
  have hpaths : discover files a.inputs = .ok rows.flatten := by
    rw [discover, hrows]
    rfl
  refine ⟨rows, (Outcome.forall₂_of_mapM_eq_ok hrows).imp fun _ _ => expand_eq_ok_iff.1, hpaths,
    fun others hothers => ?_, fun settings trees => located_of_load hpaths⟩
  have hload := load_relisted hothers a
  exact ⟨(discover_relisted hothers a.inputs).trans hpaths, hload, by rw [run, run, hload]⟩

def sampleListed : List SyntaxTree :=
  [sampleEmpty 0 "in/a.json", sampleUnit 1 "in/b.json", sampleUnit 2 "c.json"]

theorem sampleFiles_discover_reproducible :
    (∀ input ∈ ["in", "c.json"], (sampleFiles sampleListing input).isSome) ∧
    (sampleFiles sampleListing).Relisted (sampleFiles sampleListing.reverse) ∧
    ∃ paths, discover (sampleFiles sampleListing.reverse) ["in", "c.json"] = .ok paths ∧
      Located (sampleFiles sampleListing) { inputs := ["in", "c.json"] } {} paths sampleListed
        (declareFiles {} sampleListed) := by
  have hexist : ∀ input ∈ ["in", "c.json"], (sampleFiles sampleListing input).isSome := by
    decide
  have hrelisted : (sampleFiles sampleListing).Relisted (sampleFiles sampleListing.reverse) := by
    intro path
    by_cases hpath : path = "in"
    · rw [hpath]
      exact .some (Entry.relisted_of_perm (List.reverse_perm sampleListing).symm)
    · have hne : (path == "in") = false := by simpa using hpath
      have hsame : sampleFiles sampleListing.reverse path = sampleFiles sampleListing path := by
        simp only [sampleFiles, List.lookup_cons, hne]
      rw [hsame]
      cases sampleFiles sampleListing path with
      | none => exact .none
      | some entry => exact .some (Entry.Relisted.refl entry)
  have hin : StandsFor (sampleFiles sampleListing) "in" ["in/a.json", "in/b.json"] := by
    have hrow : [["a.json"], ["b.json"]].map (joinPath "in") = ["in/a.json", "in/b.json"] := by
      decide +kernel
    rw [← hrow]
    exact @StandsFor.directory _ _ sampleListing [["a.json"], ["b.json"]] rfl (by decide +kernel)
      (by decide +kernel)
  have hpaths : discover (sampleFiles sampleListing) ["in", "c.json"] =
      .ok ["in/a.json", "in/b.json", "c.json"] := by
    rw [discover, Outcome.mapM_cons, expand_eq_ok_iff.2 hin]
    rfl
  have htrees : loadTrees (sampleFiles sampleListing) {} ["in/a.json", "in/b.json", "c.json"] =
      .ok sampleListed := by
    have hfirst := loadTree_sampleEmpty sampleListing 0
    have hsecond := loadTree_sampleUnit sampleListing 1 "in/b.json" (by decide)
    have hthird := loadTree_sampleUnit sampleListing 2 "c.json" (by decide)
    have hsize : 2 < UInt32.size := by decide
    have hsize' : 1 < UInt32.size := by decide
    simp [loadTrees, loadNumbered, hfirst, hsecond, hthird, hsize, hsize', sampleListed]
  have hload : load (sampleFiles sampleListing) { inputs := ["in", "c.json"] } =
      .ok ({}, sampleListed) := load_of_stages rfl hpaths (by decide) htrees
  obtain ⟨rows, -, -, hothers, hlocated⟩ :=
    discover_reproducible { inputs := ["in", "c.json"] } hexist
  exact ⟨hexist, hrelisted, rows.flatten, (hothers _ hrelisted).1, hlocated _ _ hload⟩

end Command

end DeclTree
