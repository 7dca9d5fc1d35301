import DeclTree.Declaration.Build
/-!
The declarations of many files, in the order of the files, with totals. Files share nothing, so each
result depends on its own file only.
-/
namespace DeclTree

/-- The declarations of one file, or why there are none. -/
structure FileResult where
  fileName : String
  root : Except Fault RootDeclaration

/-- Totals over some files. -/
structure Stats where
  files : Nat := 0
  /-- Namespaces and types. -/
  declarations : Nat := 0
  diagnostics : Nat := 0
  /-- Diagnostics that are errors. -/
  errors : Nat := 0
  /-- Files without declarations. -/
  failed : Nat := 0
  deriving DecidableEq, Repr

namespace Stats

def add (s t : Stats) : Stats where
  files := s.files + t.files
  declarations := s.declarations + t.declarations
  diagnostics := s.diagnostics + t.diagnostics
  errors := s.errors + t.errors
  failed := s.failed + t.failed

instance : Add Stats := ⟨add⟩

/-- The totals of one file. -/
def ofResult (file : FileResult) : Stats :=
  match file.root with
  | .ok root =>
    { files := 1
      declarations := root.declarationCount
      diagnostics := root.allDiagnostics.length
      errors := (root.allDiagnostics.filter (·.isError)).length }
  | .error _ => { files := 1, failed := 1 }

def ofResults (files : List FileResult) : Stats := files.foldl (fun s file => s + ofResult file) {}

end Stats

/-- The declarations of one tree. -/
def declareFile (options : DeclarationOptions) (t : SyntaxTree) : FileResult :=
  ⟨t.fileName, t.declare options⟩

/-- The declarations of each tree of a list. -/
def declareFiles (options : DeclarationOptions) (trees : List SyntaxTree) : List FileResult :=
  trees.map (declareFile options)

end DeclTree
