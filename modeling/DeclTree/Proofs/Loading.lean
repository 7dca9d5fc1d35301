import DeclTree.Command.Run
import DeclTree.Proofs.Outcome
import Mathlib.Data.List.Forall2
/-!
What a run has at hand when all its inputs could be loaded: one tree for each path that the inputs
stand for, numbered by its place.
-/
namespace DeclTree

namespace Outcome
variable {ε α β : Type} {f : α → Except ε β}

theorem forall₂_of_mapM_eq_ok {xs : List α} {ys : List β} (h : xs.mapM f = .ok ys) :
    List.Forall₂ (fun x y => f x = .ok y) xs ys := by
  induction xs generalizing ys with
  | nil =>
    cases h
    exact .nil
  | cons x xs ih =>
    obtain ⟨y, rest, hy, hrest, rfl⟩ := mapM_cons_eq_ok h
    exact .cons hy (ih hrest)

end Outcome

namespace Command
variable {files : Files} {a : Arguments} {settings : Settings} {paths : List String}
  {trees : List SyntaxTree} {t : SyntaxTree} {path : String} {n : Nat}

theorem textOf?_of_toUTF8 {text : String} (h : files path = some (.file text.toUTF8)) :
    textOf? files path = some text := by
  have hvalid : ∃ h, String.fromUTF8 text.toByteArray h = text := ⟨text.isValidUTF8, rfl⟩
  simpa [textOf?, h, String.fromUTF8?] using hvalid

theorem loadTree_of_load? {id : TreeId} {text : String}
    (hfile : files path = some (.file text.toUTF8)) (hload : SyntaxTree.load? text = some t) :
    loadTree files settings id path = .ok { t with
      id, fileName := if t.fileName.isEmpty then path else t.fileName
      options := settings.apply t.options } := by
  simp only [loadTree, textOf?_of_toUTF8 hfile, hload]
  rfl

theorem id_of_loadTree {id : TreeId} (h : loadTree files settings id path = .ok t) : t.id = id := by
  unfold loadTree at h
  split at h
  · split at h
    · cases h
      rfl
    · cases h
  · cases h

/-- A tree that is loaded by its place has the place as its number. -/
theorem loadNumbered_eq_ok (h : loadNumbered files settings path n = .ok t) :
    t.id.number.toNat = n ∧ loadTree files settings t.id path = .ok t := by
  unfold loadNumbered at h
  split at h
  next hn =>
    have hid := id_of_loadTree h
    refine ⟨?_, by rwa [hid]⟩
    rw [hid]
    exact Nat.mod_eq_of_lt hn
  · cases h

theorem forall₂_of_loadTrees (h : loadTrees files settings paths = .ok trees) :
    List.Forall₂ (fun (entry : String × Nat) t =>
      loadNumbered files settings entry.1 entry.2 = .ok t) paths.zipIdx trees :=
  Outcome.forall₂_of_mapM_eq_ok h

theorem length_of_loadTrees (h : loadTrees files settings paths = .ok trees) :
    trees.length = paths.length := by
  rw [← (forall₂_of_loadTrees h).length_eq, List.length_zipIdx]

theorem exists_path_of_loadTrees (h : loadTrees files settings paths = .ok trees)
    (ht : trees[n]? = some t) :
    ∃ path, paths[n]? = some path ∧ loadNumbered files settings path n = .ok t := by
  obtain ⟨hn, ht⟩ := List.getElem?_eq_some_iff.1 ht
  have hpath : n < paths.length := length_of_loadTrees h ▸ hn
  have hentry := (forall₂_of_loadTrees h).get (by simpa using hpath) hn
  refine ⟨paths[n], List.getElem?_eq_getElem hpath, ?_⟩
  simpa [ht] using hentry

theorem load_eq_ok (h : load files a = .ok (settings, trees)) :
    ∃ paths, loadSettings files a = .ok settings ∧ discover files a.inputs = .ok paths ∧
      loadTrees files settings paths = .ok trees := by
  unfold load at h
  obtain ⟨found, hsettings, h⟩ := Outcome.bind_eq_ok h
  obtain ⟨paths, hpaths, h⟩ := Outcome.bind_eq_ok h
  refine ⟨paths, ?_⟩
  split at h
  · cases h
  · obtain ⟨loaded, htrees, h⟩ := Outcome.bind_eq_ok h
    cases h
    exact ⟨hsettings, hpaths, htrees⟩

theorem load_of_stages (hsettings : loadSettings files a = .ok settings)
    (hpaths : discover files a.inputs = .ok paths) (hne : paths ≠ [])
    (htrees : loadTrees files settings paths = .ok trees) :
    load files a = .ok (settings, trees) := by
  have hsome : paths.isEmpty = false := by simpa using hne
  simp only [load, hsettings, hpaths, htrees, hsome, Outcome.ok_bind, Bool.false_eq_true,
    ↓reduceIte]
  rfl

theorem run_of_load (h : load files a = .ok (settings, trees)) :
    run files a = .ok (.ofFiles (declareFiles settings.declarations trees)) := by
  rw [run, h]
  rfl

theorem execute_of_load {args : List String} (hargs : Arguments.read args = .ok a)
    (h : load files a = .ok (settings, trees)) (isTerminal : Bool) :
    execute files args isTerminal =
      { exitCode := (RunResult.ofFiles (declareFiles settings.declarations trees)).exitCode
        output := (RunResult.ofFiles (declareFiles settings.declarations trees)).render a
          (usesColor a isTerminal) } := by
  simp only [execute, hargs, run_of_load h]

/-! ### Samples -/

/-- A stored tree without any node. -/
def sampleEmptyText : String :=
  "[0,\"\",[],[[],[],[],[],[],[],[],[],[],[],[],[],[],[],[],[],[],[],[],[],[],[],[],[],[],[],[]],0]"

/-- A stored tree with a unit that holds nothing. -/
def sampleUnitText : String :=
  "[0,\"\",[],[[[\"CompilationUnit\",0,0,10,0]],[[4294967295]],[],[],[]," ++
  "[[[[]],[[]],[[]],[[]],[[]]]],[],[],[],[],[],[],[],[],[],[],[],[],[],[],[],[],[],[],[],[],[]],0]"

def sampleEmpty (number : UInt32) (fileName : String) : SyntaxTree where
  id := ⟨number⟩
  fileName := fileName
  options := {}
  arena := {}
  root := .ofNat 0

def sampleUnit (number : UInt32) (fileName : String) : SyntaxTree where
  id := ⟨number⟩
  fileName := fileName
  options := {}
  arena := (Arena.add {} .compilationUnit .compilationUnit ⟨0, 10⟩ {}).2
  root := .ofNat 0

theorem load?_sampleEmptyText : SyntaxTree.load? sampleEmptyText = some (sampleEmpty 0 "") := by
  decide +kernel

theorem load?_sampleUnitText : SyntaxTree.load? sampleUnitText = some (sampleUnit 0 "") := by
  decide +kernel

/-- A directory with two stored trees and another file, whose entries are listed in a given order,
and a stored tree beside the directory. -/
def sampleFiles (listing : List (String × Entry)) : Files := fun path =>
  [("in", .directory listing), ("in/a.json", .file sampleEmptyText.toUTF8),
    ("in/b.json", .file sampleUnitText.toUTF8), ("c.json", .file sampleUnitText.toUTF8)].lookup path

def sampleListing : List (String × Entry) :=
  [("b.json", .file sampleUnitText.toUTF8), ("notes.txt", .file .empty),
    ("a.json", .file sampleEmptyText.toUTF8)]

theorem loadTree_sampleEmpty (listing : List (String × Entry)) (number : UInt32) :
    loadTree (sampleFiles listing) {} ⟨number⟩ "in/a.json" =
      .ok (sampleEmpty number "in/a.json") :=
  loadTree_of_load? rfl load?_sampleEmptyText

theorem loadTree_sampleUnit (listing : List (String × Entry)) (number : UInt32) (path : String)
    (hpath : path ∈ ["in/b.json", "c.json"]) :
    loadTree (sampleFiles listing) {} ⟨number⟩ path = .ok (sampleUnit number path) := by
  obtain rfl | hpath := List.mem_cons.1 hpath
  · exact loadTree_of_load? rfl load?_sampleUnitText
  · cases List.mem_singleton.1 hpath
    exact loadTree_of_load? rfl load?_sampleUnitText

end Command

end DeclTree
