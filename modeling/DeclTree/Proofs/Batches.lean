import DeclTree.Proofs.Loading
import Mathlib.Algebra.BigOperators.Group.List.Basic
import Mathlib.Algebra.Ring.Nat
/-!
The results of a batch. Each belongs to its own file and stands in its place, whoever finishes first;
the totals are sums over the files that were built; the report and the exit code agree with them.
-/
namespace DeclTree

/-! ### Workers -/

section Workers
variable (options : DeclarationOptions) (trees : List SyntaxTree)

/-- The slots of a batch when the workers of some files have finished, in this order. A worker puts
the result of its file into the slot of the file. -/
def slotsAfter (order : List Nat) : List (Option FileResult) :=
  order.foldl (fun slots n => slots.set n (trees[n]?.map (declareFile options)))
    (List.replicate trees.length none)

variable {options trees}

theorem getElem?_foldl_set {α : Type} {result : Nat → Option α} {n : Nat} (order : List Nat)
    (slots : List (Option α)) :
    (order.foldl (fun slots n => slots.set n (result n)) slots)[n]? =
      if n ∈ order then slots[n]?.map fun _ => result n else slots[n]? := by
  induction order generalizing slots with
  | nil => simp
  | cons m order ih =>
    rw [List.foldl_cons, ih, List.getElem?_set']
    by_cases hm : m = n
    · cases slots[n]? <;> simp [hm]
    · have hm' : n ≠ m := fun heq => hm heq.symm
      simp [hm, hm']

/-- When all workers have finished, the results stand in the order of the files. -/
theorem slotsAfter_eq {order : List Nat} (horder : order.Perm (List.range trees.length)) :
    slotsAfter options trees order = (declareFiles options trees).map some := by
  refine List.ext_getElem? fun n => ?_
  rw [slotsAfter, getElem?_foldl_set, declareFiles, List.map_map, List.getElem?_map,
    List.getElem?_replicate]
  have hmem : n ∈ order ↔ n < trees.length := by rw [horder.mem_iff, List.mem_range]
  by_cases hn : n < trees.length
  · simp [hmem, hn]
  · simp [hmem, hn]

end Workers

/-! ### Totals -/

/-- The declarations of the files that were built. -/
def builtRoots (files : List FileResult) : List RootDeclaration :=
  files.filterMap fun file => file.root.toOption

/-- Whether a file could not be built. -/
def FileResult.isFailed (file : FileResult) : Bool := file.root.toOption.isNone

namespace Stats

/-- The sums over the files that were built, and the number of the others. -/
def sums (files : List FileResult) : Stats where
  files := files.length
  declarations := ((builtRoots files).map (·.declarationCount)).sum
  diagnostics := ((builtRoots files).map (·.allDiagnostics.length)).sum
  errors :=
    ((builtRoots files).map fun root => root.allDiagnostics.countP (·.severity = .error)).sum
  failed := files.countP (·.isFailed)

theorem add_eq (s t : Stats) : s + t =
    ⟨s.files + t.files, s.declarations + t.declarations, s.diagnostics + t.diagnostics,
      s.errors + t.errors, s.failed + t.failed⟩ := rfl

theorem add_assoc (s t u : Stats) : s + t + u = s + (t + u) := by
  simp only [add_eq, Nat.add_assoc]

theorem zero_add (s : Stats) : ({} : Stats) + s = s := by
  simp only [add_eq, Nat.zero_add]

theorem sums_append (files others : List FileResult) :
    sums (files ++ others) = sums files + sums others := by
  simp [sums, add_eq, builtRoots]

theorem sums_perm {files others : List FileResult} (h : files.Perm others) :
    sums files = sums others := by
  have hroots : (builtRoots files).Perm (builtRoots others) := h.filterMap _
  have hsum (count : RootDeclaration → Nat) :
      ((builtRoots files).map count).sum = ((builtRoots others).map count).sum :=
    (hroots.map count).sum_eq
  simp only [sums, h.length_eq, hsum, h.countP_eq]

theorem sums_singleton (file : FileResult) : sums [file] = ofResult file := by
  unfold sums ofResult
  cases hroot : file.root with
  | ok root =>
    simp [builtRoots, FileResult.isFailed, hroot, Except.toOption, List.countP_eq_length_filter,
      Diagnostic.isError, BEq.beq]
  | error fault => simp [builtRoots, FileResult.isFailed, hroot, Except.toOption]

theorem foldl_eq_sums (s : Stats) (files : List FileResult) :
    files.foldl (fun s file => s + ofResult file) s = s + sums files := by
  induction files generalizing s with
  | nil => rfl
  | cons file files ih =>
    rw [List.foldl_cons, ih, add_assoc, ← sums_singleton, ← sums_append, List.singleton_append]

/-- The totals that are kept file by file are the sums. -/
theorem ofResults_eq_sums (files : List FileResult) : ofResults files = sums files := by
  rw [ofResults, foldl_eq_sums, zero_add]

theorem failed_pos_iff (files : List FileResult) :
    0 < (sums files).failed ↔ ∃ file ∈ files, ∃ fault, file.root = .error fault := by
  have hfailed (file : FileResult) :
      file.isFailed = true ↔ ∃ fault, file.root = .error fault := by
    cases hroot : file.root <;> simp [FileResult.isFailed, hroot, Except.toOption]
  simp only [sums, List.countP_pos_iff, hfailed]

theorem errors_pos_iff (files : List FileResult) :
    0 < (sums files).errors ↔ ∃ file ∈ files, ∃ root, file.root = .ok root ∧
      ∃ d ∈ root.allDiagnostics, d.severity = .error := by
  have hbuilt (file : FileResult) (root : RootDeclaration) :
      file.root.toOption = some root ↔ file.root = .ok root := by
    cases hroot : file.root <;> simp [Except.toOption]
  simp only [sums, List.sum_pos_iff_exists_pos_nat, List.mem_map, builtRoots, List.mem_filterMap,
    hbuilt]
  constructor
  · rintro ⟨_, ⟨root, ⟨file, hfile, hroot⟩, rfl⟩, hpos⟩
    obtain ⟨d, hd, hsevere⟩ := List.countP_pos_iff.1 hpos
    exact ⟨file, hfile, root, hroot, d, hd, by simpa using hsevere⟩
  · rintro ⟨file, hfile, root, hroot, d, hd, hsevere⟩
    exact ⟨_, ⟨root, ⟨file, hfile, hroot⟩, rfl⟩,
      List.countP_pos_iff.2 ⟨d, hd, by simpa using hsevere⟩⟩

end Stats

/-! ### The report -/

namespace Json

/-- The value of a field of an object. -/
def field? (key : String) : Json → Option Json
  | object members => members.lookup (some key)
  | _ => none

theorem field?_record (key : String) (members : List (String × Json)) :
    (record members).field? key = members.lookup key := by
  simp only [record, field?]
  induction members with
  | nil => rfl
  | cons member members ih =>
    obtain ⟨k, value⟩ := member
    rw [List.map_cons, List.lookup_cons, List.lookup_cons, ih, Option.some_beq_some]

end Json

namespace Report

/-- An entry of a report tells of a file: its declarations, and as many diagnostics as are counted
for it, or why it could not be built. -/
def Tells (entry : Json) (file : FileResult) : Prop :=
  entry.field? "file" = some (.str file.fileName) ∧
    match file.root with
    | .ok root =>
      entry.field? "error" = none ∧ entry.field? "declarations" = some (ofRoot root) ∧
        ∃ items, entry.field? "diagnostics" = some (.array items) ∧
          items.length = (Stats.ofResult file).diagnostics
    | .error fault =>
      entry.field? "error" = some (.str fault.message) ∧ entry.field? "declarations" = none ∧
        entry.field? "diagnostics" = none

theorem tells_ofFile (file : FileResult) : Tells (ofFile file) file := by
  unfold Tells ofFile Stats.ofResult
  cases file.root with
  | ok root =>
    simp only [Json.field?_record]
    exact ⟨rfl, rfl, rfl, _, rfl, List.length_map _⟩
  | error fault =>
    simp only [Json.field?_record]
    exact ⟨rfl, rfl, rfl, rfl⟩

/-- A report has an entry for each file, in the order of the files, and states some totals. -/
structure Covers (document : Json) (files : List FileResult) (totals : Stats) : Prop where
  entries : ∃ entries, document.field? "files" = some (.array entries) ∧
    List.Forall₂ Tells entries files
  totals : ∃ stated, document.field? "stats" = some stated ∧
    stated.field? "files" = some (.nat totals.files) ∧
    stated.field? "declarations" = some (.nat totals.declarations) ∧
    stated.field? "diagnostics" = some (.nat totals.diagnostics) ∧
    stated.field? "errors" = some (.nat totals.errors) ∧
    stated.field? "failed" = some (.nat totals.failed)

theorem covers_document (files : List FileResult) (totals : Stats) :
    Covers (document files totals) files totals where
  entries := by
    refine ⟨files.map ofFile, Json.field?_record _ _, ?_⟩
    exact List.forall₂_map_left_iff.2 (List.forall₂_same.2 fun file _ => tells_ofFile file)
  totals := by
    refine ⟨ofStats totals, Json.field?_record _ _, ?_⟩
    simp only [ofStats, Json.field?_record]
    exact ⟨rfl, rfl, rfl, rfl, rfl⟩

end Report

/-! ### The exit code -/

namespace Command

/-- The exit code of the command agrees with the results of its files. -/
structure Outcome.Signals (o : Outcome) (files : List FileResult) : Prop where
  failed : o.exitCode = 2 ↔ ∃ file ∈ files, ∃ fault, file.root = .error fault
  erroneous : o.exitCode = 1 ↔ (∀ file ∈ files, ∃ root, file.root = .ok root) ∧
    ∃ file ∈ files, ∃ root, file.root = .ok root ∧ ∃ d ∈ root.allDiagnostics, d.severity = .error
  clean : o.exitCode = 0 ↔ ∀ file ∈ files, ∃ root, file.root = .ok root ∧
    ∀ d ∈ root.allDiagnostics, d.severity ≠ .error

theorem forall_ok_iff (files : List FileResult) :
    (∀ file ∈ files, ∃ root, file.root = .ok root) ↔
      ¬ ∃ file ∈ files, ∃ fault, file.root = .error fault := by
  have hone (file : FileResult) :
      (∃ root, file.root = .ok root) ↔ ¬ ∃ fault, file.root = .error fault := by
    cases hroot : file.root <;> simp
  simp only [hone, not_exists, not_and]

theorem forall_clean_iff (files : List FileResult) :
    (∀ file ∈ files, ∃ root, file.root = .ok root ∧
        ∀ d ∈ root.allDiagnostics, d.severity ≠ .error) ↔
      (∀ file ∈ files, ∃ root, file.root = .ok root) ∧
        ¬ ∃ file ∈ files, ∃ root, file.root = .ok root ∧
          ∃ d ∈ root.allDiagnostics, d.severity = .error := by
  constructor
  · intro hclean
    refine ⟨fun file hfile => ?_, ?_⟩
    · obtain ⟨root, hroot, -⟩ := hclean file hfile
      exact ⟨root, hroot⟩
    · rintro ⟨file, hfile, root, hroot, d, hd, hsevere⟩
      obtain ⟨root', hroot', hnone⟩ := hclean file hfile
      rw [hroot] at hroot'
      cases hroot'
      exact hnone d hd hsevere
  · intro ⟨hbuilt, hnone⟩ file hfile
    obtain ⟨root, hroot⟩ := hbuilt file hfile
    exact ⟨root, hroot, fun d hd hsevere => hnone ⟨file, hfile, root, hroot, d, hd, hsevere⟩⟩

/-- Of three codes, the one that a run has says which of two conditions hold. -/
theorem rankedCode_iff (p q : Prop) [Decidable p] [Decidable q] :
    ((if p then 2 else if q then 1 else 0 : UInt8) = 2 ↔ p) ∧
    ((if p then 2 else if q then 1 else 0 : UInt8) = 1 ↔ ¬ p ∧ q) ∧
    ((if p then 2 else if q then 1 else 0 : UInt8) = 0 ↔ ¬ p ∧ ¬ q) := by
  by_cases hp : p
  · simp [hp]
  · by_cases hq : q <;> simp [hp, hq]

theorem signals_of_exitCode {o : Outcome} {files : List FileResult}
    (h : o.exitCode = (RunResult.ofFiles files).exitCode) : o.Signals files := by
  have hcode : o.exitCode = if 0 < (Stats.sums files).failed then 2
      else if 0 < (Stats.sums files).errors then 1 else 0 := by
    rw [h, ← Stats.ofResults_eq_sums]
    simp only [RunResult.exitCode, RunResult.hasFailures, RunResult.hasErrors, RunResult.ofFiles,
      gt_iff_lt, decide_eq_true_eq]
  obtain ⟨htwo, hone, hzero⟩ :=
    rankedCode_iff (0 < (Stats.sums files).failed) (0 < (Stats.sums files).errors)
  rw [← hcode] at htwo hone hzero
  constructor
  · rw [htwo, Stats.failed_pos_iff]
  · rw [hone, Stats.failed_pos_iff, Stats.errors_pos_iff, forall_ok_iff]
  · rw [hzero, Stats.failed_pos_iff, Stats.errors_pos_iff, forall_clean_iff, forall_ok_iff]

theorem output_of_json {a : Arguments} (h : a.format = some .json) (files : List FileResult)
    (color : Bool) : (RunResult.ofFiles files).render a color =
      (Report.document files (.ofResults files)).print ++ "\n" := by
  simp only [RunResult.render, h, RunResult.ofFiles]

end Command

/-- What holds of the results of a batch. -/
structure Batch (options : DeclarationOptions) (trees : List SyntaxTree) : Prop where
  result : ∀ n : Nat, (declareFiles options trees)[n]? = trees[n]?.map (declareFile options)
  /-- The order in which workers finish does not matter. -/
  finished : ∀ order : List Nat, order.Perm (List.range trees.length) →
    slotsAfter options trees order = (declareFiles options trees).map some
  /-- A file that is changed changes no other result. -/
  others : ∀ (n : Nat) (t : SyntaxTree) (m : Nat), m ≠ n →
    (declareFiles options (trees.set n t))[m]? = (declareFiles options trees)[m]?
  totals : Stats.ofResults (declareFiles options trees) = .sums (declareFiles options trees)
  totalsAppend : ∀ files others : List FileResult,
    Stats.ofResults (files ++ others) = .ofResults files + .ofResults others
  totalsPerm : ∀ files others : List FileResult, files.Perm others →
    Stats.ofResults files = .ofResults others
  report : Report.Covers
    (Report.document (declareFiles options trees) (.ofResults (declareFiles options trees)))
    (declareFiles options trees) (.sums (declareFiles options trees))
  /-- Where these are the trees that the command has loaded, it tells of the results. -/
  outcome : ∀ (files : Files) (args : List String) (a : Command.Arguments)
      (settings : Command.Settings) (isTerminal : Bool),
    Command.Arguments.read args = .ok a → Command.load files a = .ok (settings, trees) →
    settings.declarations = options →
    (Command.execute files args isTerminal).Signals (declareFiles options trees) ∧
      (a.format = some .json → (Command.execute files args isTerminal).output =
        (Report.document (declareFiles options trees)
          (.ofResults (declareFiles options trees))).print ++ "\n")

/-- The results of a batch are those of its files one by one, whatever the order in which they are built.
The fault `endless` in a result stands for a build that never comes to an end, and so for a batch that
never does. -/
theorem declareFiles_batch (options : DeclarationOptions) (trees : List SyntaxTree) :
    Batch options trees where
  result n := by rw [declareFiles, List.getElem?_map]
  finished order horder := slotsAfter_eq horder
  others n t m hm := by
    rw [declareFiles, declareFiles, List.getElem?_map, List.getElem?_map,
      List.getElem?_set_ne (Ne.symm hm)]
  totals := Stats.ofResults_eq_sums _
  totalsAppend files others := by simp only [Stats.ofResults_eq_sums, Stats.sums_append]
  totalsPerm files others hperm := by simp only [Stats.ofResults_eq_sums, Stats.sums_perm hperm]
  report := by
    rw [Stats.ofResults_eq_sums]
    exact Report.covers_document _ _
  outcome := by
    rintro files args a settings isTerminal hargs hload rfl
    rw [Command.execute_of_load hargs hload]
    exact ⟨Command.signals_of_exitCode rfl, fun hjson => Command.output_of_json hjson _ _⟩

/-- A tree without a unit, which cannot be built, and one with a unit. -/
def sampleTrees : List SyntaxTree :=
  [Command.sampleEmpty 0 "in/a.json", Command.sampleUnit 1 "c.json"]

theorem sampleFiles_batch :
    Command.load (Command.sampleFiles []) { inputs := ["in/a.json", "c.json"] } =
      .ok ({}, sampleTrees) ∧
    slotsAfter {} sampleTrees [1, 0] = (declareFiles {} sampleTrees).map some ∧
    (Command.execute (Command.sampleFiles []) ["in/a.json", "c.json"] false).exitCode = 2 := by
  have htrees : Command.loadTrees (Command.sampleFiles []) {} ["in/a.json", "c.json"] =
      .ok sampleTrees := by
    have hfirst := Command.loadTree_sampleEmpty [] 0
    have hsecond := Command.loadTree_sampleUnit [] 1 "c.json" (by decide)
    have hsize : 1 < UInt32.size := by decide
    simp [Command.loadTrees, Command.loadNumbered, hfirst, hsecond, hsize, sampleTrees]
  have hload : Command.load (Command.sampleFiles []) { inputs := ["in/a.json", "c.json"] } =
      .ok ({}, sampleTrees) := Command.load_of_stages rfl rfl (by decide) htrees
  have hbatch := declareFiles_batch {} sampleTrees
  refine ⟨hload, hbatch.finished _ (by decide), ?_⟩
  refine (hbatch.outcome _ _ _ {} false rfl hload rfl).1.failed.2 ?_
  exact ⟨_, List.mem_cons_self, _, rfl⟩

end DeclTree
