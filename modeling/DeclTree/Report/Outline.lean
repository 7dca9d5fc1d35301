import DeclTree.Batch
import DeclTree.Report.Paint
/-!
The outline of a file: its name, its declarations one a line with two spaces for each level, and its
diagnostics. A file without declarations has the reason instead.
-/
namespace DeclTree.Report

/-- The name of a declaration in an outline. -/
def shownName (name : String) : String := if name.isEmpty then "<missing>" else name

/-- A comma between any two type parameters, in angle brackets. -/
def arityText (arity : UInt32) : String :=
  if arity = 0 then ""
  else "<" ++ String.ofList (List.replicate (arity.toNat - 1) ',') ++ ">"

/-- Words between brackets, if there are any. -/
def bracketed (opening separator closing : String) (words : List String) : String :=
  if words.isEmpty then "" else opening ++ separator.intercalate words ++ closing

/-- One declaration: kind, name with arity, modifiers, and names of members. -/
def declarationLine (color : Bool) (d : Declaration) : String :=
  let kind := Paint.apply color .kind d.kindText
  match d with
  | .namespaceDecl header _ => kind ++ " " ++ Paint.apply color .name (shownName header.name)
  | .typeDecl t =>
    let h := t.header
    kind ++ " " ++ Paint.apply color .name (shownName h.name ++ arityText h.arity) ++
      bracketed " [" " " "]" h.modifiers.keywords ++
      bracketed " \x7b " ", " " \x7d" h.memberNames.toList

/-- One diagnostic, with the file and the range that it belongs to. -/
def diagnosticLine (color : Bool) (fileName : String) (d : Diagnostic) : String :=
  let severity := Paint.apply color (.severity d.severity) d.severity.toText
  s!"{fileName}({d.location.span.toText}): {severity} {d.code.toText}: {d.message}"

def referenceLine (r : ReferencedFile) : String := "  #r \"" ++ r.file ++ "\""

def faultLine (color : Bool) (fault : Fault) : String :=
  "  " ++ Paint.apply color (.severity .error) Severity.error.toText ++ ": " ++ fault.message

def indent (level : Nat) : String := String.ofList (List.replicate (2 * level) ' ')

/-- The lines below the header of an outline. -/
def bodyLines (color : Bool) (file : FileResult) : List String :=
  match file.root with
  | .error fault => [faultLine color fault]
  | .ok root =>
    root.referencedFiles.map referenceLine ++
      root.outline.map (fun (level, d) => indent level ++ declarationLine color d) ++
      root.allDiagnostics.map (diagnosticLine color file.fileName)

def outlineLines (color : Bool) (file : FileResult) : List String :=
  Paint.apply color .header file.fileName :: bodyLines color file

/-- The outline of a file. Every line ends with a new line. -/
def outline (color : Bool) (file : FileResult) : String :=
  String.join ((outlineLines color file).map (· ++ "\n"))

/-- The totals in one line. -/
def statsLine (s : Stats) : String :=
  let failed := if s.failed = 0 then "" else s!", {s.failed} failed"
  s!"{s.files} files, {s.declarations} declarations, {s.diagnostics} diagnostics ({s.errors} errors)" ++
    failed

end DeclTree.Report
