import DeclTree.Batch
import DeclTree.Proofs.Reportable
import DeclTree.Proofs.Templates
import Mathlib.Data.List.GetD
/-!
What diagnostics say. Whatever is reported of a file is an error with an entry in the table of
messages, and has an argument for each place in the template of that entry.
-/
namespace DeclTree

namespace Diagnostic

/-- A diagnostic has an entry in the table of messages, with a template of the given parts. Its
arguments are as many as the template has places, and its message is the template with each of them in
its place. -/
structure Renders (d : Diagnostic) (entry : MessageEntry) (parts : List TemplatePart) : Prop where
  entry?_eq : d.code.entry? = some entry
  makeUp : TemplatePart.MakeUp parts entry.template
  mentions_iff : ∀ i, Mentions entry.template i ↔ i < d.args.length
  message_eq : d.message = TemplatePart.join (fun i => d.args.getD i "") parts
  not_mentions : ∀ i, ¬ Mentions d.message i

variable {d : Diagnostic} {entry : MessageEntry} {parts : List TemplatePart}

theorem message_of_entry (h : d.code.entry? = some entry) :
    d.message = formatMessage entry.template d.args := by
  simp [message, Code.template?, h]

theorem severity_of_entry (h : d.code.entry? = some entry) : d.severity = entry.severity := by
  simp [severity, Code.severity?, h]

theorem renders_of_makeUp (hentry : d.code.entry? = some entry)
    (hparts : TemplatePart.MakeUp parts entry.template)
    (hplaces : ∀ i, .place i ∈ parts ↔ i < d.args.length) (hargs : ∀ arg ∈ d.args, Plain arg) :
    d.Renders entry parts := by
  have hmessage : d.message = TemplatePart.join (fun i => d.args.getD i "") parts := by
    rw [message_of_entry hentry, TemplatePart.formatMessage_eq hparts hargs]
    refine TemplatePart.join_congr fun i hi => ?_
    have hlt := (hplaces i).1 hi
    rw [List.getD_eq_getElem _ _ hlt, List.getD_eq_getElem _ _ hlt]
  have hplain : Plain d.message := by
    rw [hmessage]
    refine TemplatePart.plain_join hparts.plain fun i hi => ?_
    rw [List.getD_eq_getElem _ _ ((hplaces i).1 hi)]
    exact hargs _ (List.getElem_mem _)
  exact ⟨hentry, hparts, fun i => (hparts.mentions_iff i).trans (hplaces i), hmessage,
    hplain.not_mentions⟩

end Diagnostic

theorem Code.severity_of_entry? {code : Code} {entry : MessageEntry} (h : code.entry? = some entry) :
    entry.severity = .error := by
  have hall : ∀ entry ∈ messageTable.map (·.severity), entry = .error := by decide
  exact hall _ (List.mem_map_of_mem (List.mem_of_find?_eq_some h))

set_option maxRecDepth 2000 in
/-- The codes without arguments have templates without places. -/
theorem Code.exists_entry_of_withoutArguments {code : Code} (h : code ∈ withoutArguments) :
    ∃ entry, code.entry? = some entry ∧ Plain entry.template := by
  simp only [withoutArguments, List.mem_cons, List.not_mem_nil, or_false] at h
  obtain rfl | rfl | rfl | rfl | rfl | rfl | rfl | rfl | rfl | rfl | rfl := h <;>
    exact ⟨_, rfl, plain_ofList (by decide)⟩

theorem plain_keywordText? {kind : SyntaxKind} {modifier : Modifier}
    (h : Modifier.ofKind? kind = some modifier) : Plain (kind.keywordText?.getD "") := by
  have hall : ∀ kind ∈ SyntaxKind.all, (Modifier.ofKind? kind).isSome →
      '{' ∉ (kind.keywordText?.getD "").toList := by decide +kernel
  exact hall kind kind.mem_all (by simp [h])

theorem Feature.plain_toText (f : Feature) : Plain f.toText := by
  cases f <;> exact plain_ofList (by decide)

theorem LanguageVersion.plain_toText (v : LanguageVersion) : Plain v.toText := by
  cases v <;> exact plain_ofList (by decide)

namespace SyntaxTree
variable {t : SyntaxTree} {place : Code → NodeIndex → Prop} {d : Diagnostic}

theorem Reportable.exists_renders (h : t.Reportable place d) : ∃ entry parts, d.Renders entry parts := by
  cases h with
  | plain hcode =>
    obtain ⟨entry, hentry, hplain⟩ := Code.exists_entry_of_withoutArguments hcode
    refine ⟨entry, [.text entry.template], Diagnostic.renders_of_makeUp hentry ⟨?_, ?_⟩ ?_ ?_⟩
    · simp [TemplatePart.join, TemplatePart.fill]
    · simpa using hplain
    · simp
    · simp
  | duplicate hkind =>
    refine ⟨_, [.text "Duplicate '", .place 0, .text "' modifier"],
      Diagnostic.renders_of_makeUp rfl ⟨by decide, ?_⟩ ?_ ?_⟩
    · simp [Plain]
    · simp
    · simpa using plain_keywordText? hkind
  | @feature f =>
    refine ⟨_, [.text "Feature '", .place 0, .text "' is not available in C# ", .place 1,
      .text ". Please use language version ", .place 2, .text " or greater."],
      Diagnostic.renders_of_makeUp rfl ⟨by decide, ?_⟩ ?_ ?_⟩
    · simp [Plain]
    · intro i
      simp only [List.mem_cons, TemplatePart.place.injEq, reduceCtorEq, List.not_mem_nil, or_false,
        false_or, List.length_cons, List.length_nil]
      omega
    · simpa using ⟨f.plain_toText, t.options.version.plain_toText, f.since.plain_toText⟩

theorem Reportable.severity_eq (h : t.Reportable place d) : d.severity = .error := by
  obtain ⟨entry, parts, hrenders⟩ := h.exists_renders
  rw [Diagnostic.severity_of_entry hrenders.entry?_eq, Code.severity_of_entry? hrenders.entry?_eq]

theorem Reportable.exists_location (h : t.Reportable place d) :
    ∃ i, place d.code i ∧ d.location = t.location i := by
  cases h with
  | plain _ hi => exact ⟨_, hi, rfl⟩
  | duplicate _ hi => exact ⟨_, hi, rfl⟩
  | feature _ hi => exact ⟨_, hi, rfl⟩

theorem isError_of_mem_allDiagnostics {options : DeclarationOptions} {r : RootDeclaration}
    (hr : t.declare options = .ok r) (h : d ∈ r.allDiagnostics) : d.isError = true := by
  simp [Diagnostic.isError, (reportable_of_mem_allDiagnostics hr h).severity_eq]

theorem hasErrors_iff {options : DeclarationOptions} {r : RootDeclaration}
    (hr : t.declare options = .ok r) : r.hasErrors = true ↔ r.allDiagnostics ≠ [] := by
  rw [RootDeclaration.hasErrors, List.any_eq_true]
  refine ⟨fun ⟨d, hd, _⟩ => List.ne_nil_of_mem hd, fun hne => ?_⟩
  obtain ⟨d, hd⟩ := List.exists_mem_of_ne_nil _ hne
  exact ⟨d, hd, isError_of_mem_allDiagnostics hr hd⟩

end SyntaxTree

namespace Stats

theorem errors_ofResult (options : DeclarationOptions) (t : SyntaxTree) :
    (ofResult (declareFile options t)).errors = (ofResult (declareFile options t)).diagnostics := by
  unfold ofResult declareFile
  cases hr : t.declare options with
  | error e => rfl
  | ok r =>
    have hall : r.allDiagnostics.filter (·.isError) = r.allDiagnostics :=
      List.filter_eq_self.2 fun d hd => SyntaxTree.isError_of_mem_allDiagnostics hr hd
    simp only [hall]

theorem errors_ofResults (options : DeclarationOptions) (trees : List SyntaxTree) :
    (ofResults (declareFiles options trees)).errors =
      (ofResults (declareFiles options trees)).diagnostics := by
  suffices hall : ∀ s : Stats, s.errors = s.diagnostics →
      ((declareFiles options trees).foldl (fun s file => s + ofResult file) s).errors =
        ((declareFiles options trees).foldl (fun s file => s + ofResult file) s).diagnostics from
    hall {} rfl
  induction trees with
  | nil => exact fun s hs => hs
  | cons t trees ih =>
    intro s hs
    refine ih (s + ofResult (declareFile options t)) ?_
    have hone := errors_ofResult options t
    show s.errors + _ = s.diagnostics + _
    rw [hs, hone]

end Stats

/-- Whatever is reported of a file of a batch is an error at an index that the file mentions, and can
be shown: there is a template for it, with a place for each argument. So a file has errors just if
anything is reported of it, and the totals of the batch count as many errors as diagnostics. -/
theorem declareFiles_messages (options : DeclarationOptions) (trees : List SyntaxTree) :
    (∀ t ∈ trees, ∀ r, t.declare options = .ok r →
      (∀ d ∈ r.allDiagnostics, d.severity = .error ∧
        (∃ i, t.IsMentioned i ∧ d.location = t.location i) ∧
        ∃ entry parts, d.Renders entry parts) ∧
      (r.hasErrors = true ↔ r.allDiagnostics ≠ [])) ∧
    (Stats.ofResults (declareFiles options trees)).errors =
      (Stats.ofResults (declareFiles options trees)).diagnostics := by
  refine ⟨fun t _ r hr => ⟨fun d hd => ?_, SyntaxTree.hasErrors_iff hr⟩,
    Stats.errors_ofResults options trees⟩
  have hreport := SyntaxTree.reportable_of_mem_allDiagnostics hr hd
  exact ⟨hreport.severity_eq, hreport.exists_location, hreport.exists_renders⟩

/-- The file `public public class C {}`. -/
def SyntaxTree.sampleTwice : SyntaxTree :=
  let a : Arena := {}
  let a := (a.addToken .publicKeyword ⟨0, 6⟩).2
  let a := (a.addToken .publicKeyword ⟨7, 13⟩).2
  let a := (a.add .identifier .identifierToken ⟨20, 21⟩ (⟨"C"⟩ : Syntax.Identifier)).2
  let a := (a.add .typeDecl .classDeclaration ⟨0, 24⟩
    ({ modifiers := [.ofNat 0, .ofNat 1], identifier := .ofNat 2 } : Syntax.TypeDecl)).2
  let a := (a.add .compilationUnit .compilationUnit ⟨0, 24⟩
    ({ members := [.ofNat 3] } : Syntax.CompilationUnit)).2
  ⟨⟨0⟩, "twice.cs", {}, a, .ofNat 4⟩

example : (SyntaxTree.sampleTwice.declare {}).toOption.map (·.allDiagnostics.map (·.message)) =
    some ["Duplicate 'public' modifier"] := by
  decide +kernel

theorem sampleTwice_declareFiles_messages : ∃ r, SyntaxTree.sampleTwice.declare {} = .ok r ∧
    ∀ d ∈ r.allDiagnostics, ∃ entry parts, d.Renders entry parts := by
  obtain ⟨r, hr⟩ : ∃ r, SyntaxTree.sampleTwice.declare {} = .ok r :=
    Outcome.exists_eq_ok (by decide +kernel)
  obtain ⟨hfiles, -⟩ := declareFiles_messages {} [SyntaxTree.sampleTwice]
  obtain ⟨hreports, -⟩ := hfiles _ List.mem_cons_self r hr
  exact ⟨r, hr, fun d hd => (hreports d hd).2.2⟩

end DeclTree
