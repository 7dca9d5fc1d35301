import DeclTree.Batch
import DeclTree.Json.Print
/-!
The report as JSON: for each file its declarations and diagnostics, or the fault, and then totals.
-/
namespace DeclTree.Report

open Json

def ofUInt32 (n : UInt32) : Json := .nat n.toNat

def ofSpan (s : Span) : Json := .record [("start", ofUInt32 s.start), ("end", ofUInt32 s.stop)]

def ofLocation (l : Location) : Json :=
  .record [("tree", ofUInt32 l.tree.number), ("span", ofSpan l.span)]

def ofReference (r : SyntaxReference) : Json := .record [
  ("tree", ofUInt32 r.tree.number), ("node", ofUInt32 r.node.number), ("span", ofSpan r.span)]

/-- The arguments of a diagnostic are left out when there are none. -/
def ofDiagnostic (d : Diagnostic) : Json := .record (
  [("code", ofUInt32 d.code), ("location", ofLocation d.location)] ++
  if d.args.isEmpty then [] else [("args", .ofList .str d.args)])

def ofReferencedFile (r : ReferencedFile) : Json :=
  .record [("file", .str r.file), ("location", ofLocation r.location)]

def ofFlags {α : Type} [Flag α] (s : FlagSet α) : Json := .str s.toText

mutual
/-- The fields of a type. -/
def typeFields : TypeDeclaration → List (String × Json)
  | .mk h inner => [
    ("syntax_reference", ofReference h.reference),
    ("name_location", ofLocation h.nameLocation),
    ("diagnostics", .ofList ofDiagnostic h.diagnostics),
    ("kind", .str h.kind.name),
    ("name", .str h.name),
    ("arity", ofUInt32 h.arity),
    ("modifiers", ofFlags h.modifiers),
    ("flags", ofFlags h.facts),
    ("member_names", .ofList .str h.memberNames.toList),
    ("children", .array (ofTypes inner)),
    ("attribute_hints", ofFlags h.hints)]

def ofTypes : List TypeDeclaration → List Json
  | [] => []
  | t :: ts => .record (typeFields t) :: ofTypes ts
end

mutual
/-- A declaration below the root or below a namespace, which says first which of the two it is. -/
def ofDeclaration : Declaration → Json
  | .namespaceDecl h inner => .record [
    ("declaration", .str "Namespace"),
    ("syntax_reference", ofReference h.reference),
    ("name_location", ofLocation h.nameLocation),
    ("diagnostics", .ofList ofDiagnostic h.diagnostics),
    ("name", .str h.name),
    ("has_usings", .bool h.hasUsings),
    ("has_extern_aliases", .bool h.hasExternAliases),
    ("children", .array (ofDeclarations inner))]
  | .typeDecl t => .record (("declaration", .str "Type") :: typeFields t)

def ofDeclarations : List Declaration → List Json
  | [] => []
  | d :: ds => ofDeclaration d :: ofDeclarations ds
end

def ofRoot (r : RootDeclaration) : Json := .record [
  ("syntax_reference", ofReference r.reference),
  ("name_location", ofLocation r.nameLocation),
  ("diagnostics", .ofList ofDiagnostic r.diagnostics),
  ("has_global_usings", .bool r.hasGlobalUsings),
  ("has_usings", .bool r.hasUsings),
  ("has_extern_aliases", .bool r.hasExternAliases),
  ("children", .array (ofDeclarations r.children)),
  ("reference_directives", .ofList ofReferencedFile r.referencedFiles),
  ("has_assembly_attributes", .bool r.hasAssemblyAttributes),
  ("global_aliased_attribute_hints", ofFlags r.globalAliasHints)]

/-- A diagnostic as readers see it. -/
def ofRendered (d : Diagnostic) : Json := .record [
  ("code", .str d.code.toText),
  ("category", .str d.severity.toText),
  ("message", .str d.message),
  ("start", ofUInt32 d.location.span.start),
  ("end", ofUInt32 d.location.span.stop)]

def ofFile (file : FileResult) : Json :=
  match file.root with
  | .ok root => .record [
    ("file", .str file.fileName),
    ("declarations", ofRoot root),
    ("diagnostics", .ofList ofRendered root.allDiagnostics)]
  | .error fault => .record [("file", .str file.fileName), ("error", .str fault.message)]

def ofStats (s : Stats) : Json := .record [
  ("files", .nat s.files),
  ("declarations", .nat s.declarations),
  ("diagnostics", .nat s.diagnostics),
  ("errors", .nat s.errors),
  ("failed", .nat s.failed)]

/-- The report on some files. -/
def document (files : List FileResult) (s : Stats) : Json :=
  .record [("files", .ofList ofFile files), ("stats", ofStats s)]

end DeclTree.Report
