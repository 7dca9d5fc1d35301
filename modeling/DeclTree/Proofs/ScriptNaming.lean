import DeclTree.Proofs.Paths
import DeclTree.Proofs.SourceModes
/-!
The name of a script's class. Taken apart from the end, a dotted name becomes namespaces around the
class; taken apart from the front it leads to the class again, unless a namespace of the file has the
first name.
-/
namespace DeclTree

namespace Declaration
variable {row hoisted : List Declaration}

/-- Namespaces do not come into the way of a type of the row. -/
theorem typeNamed?_append_of_namespaces (hspaces : ∀ d ∈ hoisted, d.type? = none)
    (name : String) : typeNamed? name (hoisted ++ row) = typeNamed? name row := by
  have hnone : typeNamed? name hoisted = none :=
    typeNamed?_eq_none fun d hd => by simp [hspaces d hd]
  rw [typeNamed?_append, hnone, Option.none_or]

theorem find?_nest (headers : List NamespaceHeader) (ty : TypeDeclaration) :
    find? (nest headers [.typeDecl ty]) (headers.map (·.name) ++ [ty.header.name]) = some ty := by
  rw [find?_nest_append headers _ (List.cons_ne_nil _ _)]
  simp [find?, typeNamed?, name, type?]

end Declaration

namespace SyntaxTree
variable {t : SyntaxTree}

theorem mem_scriptHeaders {options : DeclarationOptions} {header : NamespaceHeader}
    (h : header ∈ t.scriptHeaders options) : header.reference = t.reference t.root ∧
      header.nameLocation = t.location t.root ∧ header.diagnostics = [] := by
  obtain ⟨name, -, rfl⟩ := List.mem_map.1 h
  exact ⟨rfl, rfl, rfl⟩

/-- The last declaration below the root of a script is the class of the script within namespaces, whose
names make up the given name. All of them stand for the unit. The given name leads to the class unless
a namespace of the file has its first segment, and always if it has no dot. -/
theorem declare_scriptNaming {options : DeclarationOptions} {r : RootDeclaration}
    (hr : t.declare options = .ok r) (hscript : t.isScript = true) :
    ∃ hoisted chain headers script, r.children = hoisted ++ [chain] ∧
      (∀ d ∈ hoisted, d.type? = none) ∧
      [chain] = Declaration.nest headers [.typeDecl script] ∧
      script.header.kind = (if options.isSubmission then .submissionClass else .scriptClass) ∧
      ".".intercalate (headers.map (·.name) ++ [script.header.name]) = options.scriptClassName ∧
      (∀ header ∈ headers, header.reference = t.reference t.root ∧
        header.nameLocation = t.location t.root ∧ header.diagnostics = []) ∧
      script.header.reference = t.reference t.root ∧
      script.header.nameLocation = t.location t.root ∧ script.header.diagnostics = [] ∧
      ((∀ d ∈ hoisted, some d.name ≠ (Text.segments options.scriptClassName).head?) →
        r.findType? options.scriptClassName = some script) ∧
      ('.' ∉ options.scriptClassName.toList →
        r.findType? options.scriptClassName = some script) := by
  obtain ⟨s, hs, rfl⟩ := declare_eq_ok hr
  have hnames := names_scriptHeaders (t := t) options s.unit.members (s.built.filterMap (·.type?))
  have hchain := t.nest_scriptHeaders options s.unit.members (s.built.filterMap (·.type?))
  have hspaces : ∀ d ∈ s.built.filter (·.type?.isNone), d.type? = none :=
    fun d hd => by simpa using (List.mem_filter.1 hd).2
  have hfound := Declaration.find?_nest (t.scriptHeaders options)
    (t.scriptType options s.unit.members (s.built.filterMap (·.type?)))
  rw [hnames] at hfound
  refine ⟨_, _, _, _, ?_, hspaces, hchain.symm, rfl, ?_, fun _ => mem_scriptHeaders, rfl, rfl, rfl,
    fun hother => ?_, fun hdot => ?_⟩
  · rw [rootDeclaration_children, rootChildren_scripted hscript, hchain]
  · rw [hnames, Text.intercalate_segments]
  · rw [RootDeclaration.findType?, rootDeclaration_children, rootChildren_scripted hscript]
    cases hsegments : Text.segments options.scriptClassName with
    | nil => simp [Text.segments, Text.split, Text.splitList] at hsegments
    | cons first path =>
      rw [hsegments] at hother hfound
      rw [Declaration.find?_append_of_ne (fun d hd heq => hother d hd (by rw [heq]; rfl)), hfound]
  · have hsegments : Text.segments options.scriptClassName = [options.scriptClassName] := by
      have hsingle := Text.segments_intercalate (List.cons_ne_nil options.scriptClassName [])
        (by simpa using hdot)
      rwa [String.intercalate_singleton] at hsingle
    rw [RootDeclaration.findType?, rootDeclaration_children, rootChildren_scripted hscript,
      hsegments, Declaration.find?, Declaration.typeNamed?_append_of_namespaces hspaces]
    rw [hsegments] at hfound
    exact hfound

/-- The script `namespace N { } class C { }`. -/
def sampleScript : SyntaxTree :=
  let a : Arena := {}
  let a := (a.add .identifier .identifierName ⟨10, 11⟩ (⟨"N"⟩ : Syntax.Identifier)).2
  let a := (a.add .namespaceDecl .namespaceDeclaration ⟨0, 15⟩
    ({ name := .ofNat 0 } : Syntax.Namespace)).2
  let a := (a.add .typeDecl .classDeclaration ⟨16, 27⟩ ({} : Syntax.TypeDecl)).2
  let a := (a.add .compilationUnit .compilationUnit ⟨0, 27⟩
    ({ members := [.ofNat 1, .ofNat 2] } : Syntax.CompilationUnit)).2
  ⟨⟨0⟩, "script.csx", { kind := .script }, a, .ofNat 3⟩

theorem sampleScript_declare_scriptNaming :
    (∃ r script, sampleScript.declare { scriptClassName := "..A." } = .ok r ∧
      r.findType? "..A." = some script ∧ script.header.kind = .scriptClass) ∧
    ∃ r script, sampleScript.declare { scriptClassName := "N", isSubmission := true } = .ok r ∧
      r.findType? "N" = some script ∧ script.header.kind = .submissionClass := by
  constructor
  · obtain ⟨r, hr⟩ : ∃ r, sampleScript.declare { scriptClassName := "..A." } = .ok r :=
      Outcome.exists_eq_ok (by decide +kernel)
    have hnames : (sampleScript.declare { scriptClassName := "..A." }).map
        (fun r => r.children.map (·.name)) = .ok ["N", ""] := by decide +kernel
    rw [hr] at hnames
    obtain ⟨hoisted, chain, headers, script, hchildren, -, -, hkind, -, -, -, -, -, hfind, -⟩ :=
      declare_scriptNaming hr rfl
    have hhoisted : hoisted.map (·.name) = ["N"] := by
      have hall : hoisted.map (·.name) ++ [chain.name] = ["N"] ++ [""] := by
        simpa [hchildren] using Except.ok.inj hnames
      exact (List.append_inj' hall rfl).1
    refine ⟨r, script, hr, hfind fun d hd => ?_, hkind⟩
    have hname : d.name = "N" := by
      simpa [hhoisted] using List.mem_map_of_mem (f := (·.name)) hd
    rw [hname]
    decide +kernel
  · obtain ⟨r, hr⟩ : ∃ r, sampleScript.declare
        { scriptClassName := "N", isSubmission := true } = .ok r :=
      Outcome.exists_eq_ok (by decide +kernel)
    obtain ⟨hoisted, chain, headers, script, -, -, -, hkind, -, -, -, -, -, -, hfind⟩ :=
      declare_scriptNaming hr rfl
    exact ⟨r, script, hr, hfind (by decide +kernel), hkind⟩

end SyntaxTree

end DeclTree
