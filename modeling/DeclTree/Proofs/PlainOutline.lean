import DeclTree.Proofs.Rows
import DeclTree.Report.Outline
/-!
The outline of a file against its declarations: one line for each of them in pre-order, and nothing
left out. Paint adds nothing to an outline but sequences for the terminal: without these the outline
with color is the one without.
-/
namespace DeclTree

namespace Paint

/-- Deletes the sequences `ESC[…m` from a text; in the middle of a sequence, first of all the rest
of it. -/
def eraseFrom : Bool → List Char → List Char
  | _, [] => []
  | true, c :: cs => eraseFrom (c != 'm') cs
  | false, c :: cs =>
    if ['\x1b', '['].isPrefixOf (c :: cs) then eraseFrom true cs else c :: eraseFrom false cs

/-- The text without the sequences for the terminal. -/
def erase (s : String) : String := String.ofList (eraseFrom false s.toList)

/-- A text in which no sequence starts. -/
def Bare (s : String) : Prop := '\x1b' ∉ s.toList

instance (s : String) : Decidable (Bare s) := inferInstanceAs (Decidable ('\x1b' ∉ s.toList))

theorem bare_append {s t : String} : Bare (s ++ t) ↔ Bare s ∧ Bare t := by
  simp [Bare, String.toList_append]

theorem bare_join {texts : List String} : Bare (String.join texts) ↔ ∀ s ∈ texts, Bare s := by
  simp [Bare, String.toList_join]

theorem eraseFrom_append_of_not_mem {cs : List Char} (h : '\x1b' ∉ cs) (rest : List Char) :
    eraseFrom false (cs ++ rest) = cs ++ eraseFrom false rest := by
  induction cs with
  | nil => rfl
  | cons c cs ih =>
    have hc : c ≠ '\x1b' := fun heq => h (heq ▸ List.mem_cons_self)
    have hcs : '\x1b' ∉ cs := fun hmem => h (List.mem_cons_of_mem _ hmem)
    simp [eraseFrom, hc.symm, ih hcs]

theorem eraseFrom_opening (p : Paint) (rest : List Char) :
    eraseFrom false (p.opening.toList ++ rest) = eraseFrom false rest := by
  cases p with
  | severity s => cases s <;> rfl
  | _ => rfl

theorem eraseFrom_reset (rest : List Char) :
    eraseFrom false (reset.toList ++ rest) = eraseFrom false rest := rfl

/-- The second text is what is left of the first one, whatever comes after it. -/
def Leaves (s t : String) : Prop :=
  ∀ rest, eraseFrom false (s.toList ++ rest) = t.toList ++ eraseFrom false rest

theorem Leaves.erase_eq {s t : String} (h : Leaves s t) : erase s = t := by
  have hall := h []
  rw [List.append_nil] at hall
  rw [erase, hall]
  simp [eraseFrom]

theorem Bare.leaves {s : String} (h : Bare s) : Leaves s s := eraseFrom_append_of_not_mem h

theorem Leaves.append {s s' t t' : String} (h : Leaves s t) (h' : Leaves s' t') :
    Leaves (s ++ s') (t ++ t') := fun rest => by
  rw [String.toList_append, String.toList_append, List.append_assoc, h, h', List.append_assoc]

theorem leaves_apply {p : Paint} {text : String} (h : Bare text) :
    Leaves (p.apply true text) (p.apply false text) := fun rest => by
  have hplain : Text.replaceAll reset (reset ++ p.opening) text = text := by
    have hreset : '\x1b' ∈ reset.toList := by decide
    rw [Text.replaceAll, Text.replaceFrom_of_not_mem hreset h, String.ofList_toList]
  simp only [apply, ↓reduceIte, hplain, String.toList_append, List.append_assoc, Bool.false_eq_true]
  rw [eraseFrom_opening, h.leaves, eraseFrom_reset]

/-- Pieces one after another leave what each of them leaves. -/
theorem Leaves.join_map {α : Type} {f g : α → String} {items : List α}
    (h : ∀ x ∈ items, Leaves (f x) (g x)) :
    Leaves (String.join (items.map f)) (String.join (items.map g)) := by
  induction items with
  | nil => exact fun rest => rfl
  | cons x items ih =>
    rw [List.map_cons, List.map_cons, String.join_cons, String.join_cons]
    exact (h x List.mem_cons_self).append (ih fun y hy => h y (List.mem_cons_of_mem _ hy))

end Paint

namespace Report
open Paint

variable {d : Declaration} {file : FileResult}

theorem leaves_declarationLine (h : Bare (declarationLine false d)) :
    Leaves (declarationLine true d) (declarationLine false d) := by
  cases d with
  | namespaceDecl header inner =>
    obtain ⟨⟨hkind, hspace⟩, hname⟩ := by simpa only [declarationLine, bare_append] using h
    exact ((leaves_apply hkind).append hspace.leaves).append (leaves_apply hname)
  | typeDecl t =>
    obtain ⟨⟨⟨⟨hkind, hspace⟩, hname⟩, hmodifiers⟩, hmembers⟩ := by
      simpa only [declarationLine, bare_append] using h
    exact ((((leaves_apply hkind).append hspace.leaves).append (leaves_apply hname)).append
      hmodifiers.leaves).append hmembers.leaves

theorem diagnosticLine_eq (color : Bool) (fileName : String) (d : Diagnostic) :
    diagnosticLine color fileName d = fileName ++ "(" ++ d.location.span.toText ++ "): " ++
      Paint.apply color (.severity d.severity) d.severity.toText ++
        (" " ++ d.code.toText ++ ": " ++ d.message) := by
  simp [diagnosticLine, toString, String.append_assoc]

theorem leaves_diagnosticLine {fileName : String} {d : Diagnostic}
    (h : Bare (diagnosticLine false fileName d)) :
    Leaves (diagnosticLine true fileName d) (diagnosticLine false fileName d) := by
  rw [diagnosticLine_eq, bare_append, bare_append] at h
  obtain ⟨⟨hplace, hseverity⟩, hmessage⟩ := h
  rw [diagnosticLine_eq, diagnosticLine_eq]
  exact (hplace.leaves.append (leaves_apply hseverity)).append hmessage.leaves

/-- An outline piece by piece; every piece ends its line. -/
theorem outline_eq_pieces (color : Bool) (fileName : String) (r : RootDeclaration) :
    outline color ⟨fileName, .ok r⟩ =
      Paint.apply color .header fileName ++ "\n" ++
        String.join (r.referencedFiles.map fun f => "  #r \"" ++ f.file ++ "\"\n") ++
        String.join ((Declaration.preorders 1 r.children).map fun (level, d) =>
          indent level ++ declarationLine color d ++ "\n") ++
        String.join (r.allDiagnostics.map fun d => diagnosticLine color fileName d ++ "\n") := by
  have hreference (f : ReferencedFile) :
      referenceLine f ++ "\n" = "  #r \"" ++ f.file ++ "\"\n" := by
    rw [referenceLine, String.append_assoc]
    rfl
  simp only [outline, outlineLines, bodyLines, RootDeclaration.outline_eq_preorders, List.map_cons,
    List.map_append, List.map_map, String.join_cons, String.join_append, Function.comp_def,
    hreference, String.append_assoc]

theorem leaves_outline {fileName : String} {r : RootDeclaration}
    (h : Bare (outline false ⟨fileName, .ok r⟩)) :
    Leaves (outline true ⟨fileName, .ok r⟩) (outline false ⟨fileName, .ok r⟩) := by
  rw [outline_eq_pieces] at h
  simp only [bare_append, bare_join, List.mem_map] at h
  obtain ⟨⟨⟨⟨hname, hend⟩, hreferences⟩, hdeclarations⟩, hdiagnostics⟩ := h
  rw [outline_eq_pieces, outline_eq_pieces]
  refine ((((leaves_apply hname).append hend.leaves).append (.join_map fun f hf => ?_)).append
    (.join_map fun entry hentry => ?_)).append (.join_map fun d hd => ?_)
  · exact Bare.leaves (hreferences _ ⟨f, hf, rfl⟩)
  · obtain ⟨⟨hindent, hline⟩, hbreak⟩ := by
      simpa only [bare_append] using hdeclarations _ ⟨entry, hentry, rfl⟩
    exact (hindent.leaves.append (leaves_declarationLine hline)).append hbreak.leaves
  · obtain ⟨hline, hbreak⟩ := bare_append.1 (hdiagnostics _ ⟨d, hd, rfl⟩)
    exact (leaves_diagnosticLine hline).append hbreak.leaves

/-- The outline of a file has a line for its name, for each reference, for each declaration in
pre-order and for each diagnostic, and the paint in it can be taken off again. -/
theorem outline_complete (fileName : String) (r : RootDeclaration) :
    r.allDiagnostics = r.diagnostics ++
      (Declaration.preorders 1 r.children).flatMap (fun entry => entry.2.diagnostics) ∧
    r.declarationCount = (Declaration.preorders 1 r.children).length ∧
    outline false ⟨fileName, .ok r⟩ =
      fileName ++ "\n" ++
        String.join (r.referencedFiles.map fun f => "  #r \"" ++ f.file ++ "\"\n") ++
        String.join ((Declaration.preorders 1 r.children).map fun (level, d) =>
          indent level ++ declarationLine false d ++ "\n") ++
        String.join (r.allDiagnostics.map fun d => diagnosticLine false fileName d ++ "\n") ∧
    (Bare (outline false ⟨fileName, .ok r⟩) →
      erase (outline true ⟨fileName, .ok r⟩) = outline false ⟨fileName, .ok r⟩) := by
  refine ⟨?_, ?_, outline_eq_pieces false fileName r, fun h => (leaves_outline h).erase_eq⟩
  · rw [RootDeclaration.allDiagnostics_eq_flatMap, RootDeclaration.declarations,
      RootDeclaration.outline_eq_preorders, List.flatMap_map]
  · rw [← RootDeclaration.outline_eq_preorders, RootDeclaration.outline,
      Declaration.length_visits, RootDeclaration.declarationCount_eq_sizes]
    simp [Function.comp_def]

/-- A script with a reference, a class in a namespace that has a modifier, and then a struct without
a name. -/
def sampleScript : RootDeclaration where
  reference := ⟨⟨0⟩, .ofNat 9, ⟨0, 40⟩⟩
  nameLocation := ⟨⟨0⟩, ⟨0, 40⟩⟩
  diagnostics := []
  hasGlobalUsings := false
  hasUsings := false
  hasExternAliases := false
  children :=
    let classC : TypeHeader :=
      { reference := ⟨⟨0⟩, .ofNat 3, ⟨12, 29⟩⟩
        nameLocation := ⟨⟨0⟩, ⟨18, 19⟩⟩
        kind := .classType
        name := "C"
        arity := 2
        memberNames := .ofList ["M", "F"] }
    let nameless : TypeHeader :=
      { reference := ⟨⟨0⟩, .ofNat 8, ⟨31, 40⟩⟩
        nameLocation := ⟨⟨0⟩, ⟨38, 38⟩⟩
        kind := .structType
        name := "" }
    let namespaceN : NamespaceHeader :=
      { reference := ⟨⟨0⟩, .ofNat 5, ⟨0, 30⟩⟩
        nameLocation := ⟨⟨0⟩, ⟨10, 11⟩⟩
        diagnostics := [⟨Code.modifiersOnNamespace, ⟨⟨0⟩, ⟨0, 6⟩⟩, []⟩]
        name := "N" }
    [.namespaceDecl namespaceN [.typeDecl (.mk classC [])], .typeDecl (.mk nameless [])]
  referencedFiles := [⟨"lib.dll", ⟨⟨0⟩, ⟨0, 3⟩⟩⟩]
  hasAssemblyAttributes := false
  globalAliasHints := ∅

theorem sampleScript_outline :
    erase (outline true ⟨"s.csx", .ok sampleScript⟩) =
      "s.csx\n  #r \"lib.dll\"\n  namespace N\n    class C<,> \x7b F, M \x7d\n  struct <missing>\n" ++
      "s.csx(0..6): error CS1671: A namespace declaration cannot have modifiers or attributes\n" := by
  obtain ⟨-, -, -, herase⟩ := outline_complete "s.csx" sampleScript
  rw [herase (by decide +kernel)]
  decide +kernel

end Report

end DeclTree
