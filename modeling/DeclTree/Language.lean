import DeclTree.Text.Blank
/-!
C# language versions, the kinds of source file, and the features that need a minimum version.
-/
namespace DeclTree

/-- The language version a file is compiled against, oldest first. -/
inductive LanguageVersion
  | v1 | v2 | v3 | v4 | v5 | v6 | v7 | v7p1 | v7p2 | v7p3 | v8 | v9 | v10 | v11 | v12 | v13
  | preview
  deriving DecidableEq, Repr

namespace LanguageVersion

/-- The newest released version. -/
def latest : LanguageVersion := v13

instance : Inhabited LanguageVersion := ⟨latest⟩

def all : List LanguageVersion :=
  [v1, v2, v3, v4, v5, v6, v7, v7p1, v7p2, v7p3, v8, v9, v10, v11, v12, v13, preview]

/-- The place of a version in the order of release. -/
def rank (v : LanguageVersion) : Nat := v.ctorIdx

instance : LE LanguageVersion := ⟨fun v w => v.rank ≤ w.rank⟩

instance (v w : LanguageVersion) : Decidable (v ≤ w) :=
  inferInstanceAs (Decidable (v.rank ≤ w.rank))

/-- The number by which users and messages call a version. -/
def toText : LanguageVersion → String
  | v1 => "1" | v2 => "2" | v3 => "3" | v4 => "4" | v5 => "5" | v6 => "6" | v7 => "7"
  | v7p1 => "7.1" | v7p2 => "7.2" | v7p3 => "7.3" | v8 => "8" | v9 => "9" | v10 => "10"
  | v11 => "11" | v12 => "12" | v13 => "13" | preview => "preview"

/-- The name of a version in a stored tree. -/
def name : LanguageVersion → String
  | v1 => "CSharp1" | v2 => "CSharp2" | v3 => "CSharp3" | v4 => "CSharp4" | v5 => "CSharp5"
  | v6 => "CSharp6" | v7 => "CSharp7" | v7p1 => "CSharp7_1" | v7p2 => "CSharp7_2"
  | v7p3 => "CSharp7_3" | v8 => "CSharp8" | v9 => "CSharp9" | v10 => "CSharp10"
  | v11 => "CSharp11" | v12 => "CSharp12" | v13 => "CSharp13" | preview => "Preview"

def ofName? (s : String) : Option LanguageVersion := all.find? (·.name == s)

/-- Reads a version as a user writes it: a number, with `.0` or not where it is whole, or one of
the names of the newest ones; case and surrounding blanks do not matter. -/
def ofText? (s : String) : Option LanguageVersion :=
  match (Text.trim s).map Char.toLower with
  | "1" | "1.0" => some v1
  | "2" | "2.0" => some v2
  | "3" | "3.0" => some v3
  | "4" | "4.0" => some v4
  | "5" | "5.0" => some v5
  | "6" | "6.0" => some v6
  | "7" | "7.0" => some v7
  | "7.1" => some v7p1
  | "7.2" => some v7p2
  | "7.3" => some v7p3
  | "8" | "8.0" => some v8
  | "9" | "9.0" => some v9
  | "10" | "10.0" => some v10
  | "11" | "11.0" => some v11
  | "12" | "12.0" => some v12
  | "13" | "13.0" | "latest" | "default" => some v13
  | "preview" | "latestmajor" => some preview
  | _ => none

/-- What is said of a text that names no version. -/
def unknownMessage (s : String) : String := s!"unknown language version '{s}'"

theorem mem_all (v : LanguageVersion) : v ∈ all := by cases v <;> decide

theorem ofName?_name (v : LanguageVersion) : ofName? v.name = some v := by cases v <;> decide

end LanguageVersion

/-- How a file is compiled. The top-level members of a script live in a class of their own. -/
inductive SourceKind
  | regular | script
  deriving DecidableEq, Repr, Inhabited

namespace SourceKind

def name : SourceKind → String
  | regular => "Regular"
  | script => "Script"

def ofName? : String → Option SourceKind
  | "Regular" => some regular
  | "Script" => some script
  | _ => none

theorem ofName?_name (k : SourceKind) : ofName? k.name = some k := by cases k <;> rfl

end SourceKind

/-- The features that declarations check a language version for. -/
inductive Feature
  | staticClasses | partialTypes | readonlyStructs | refStructs | fileTypes
  deriving DecidableEq, Repr

namespace Feature

def all : List Feature := [staticClasses, partialTypes, readonlyStructs, refStructs, fileTypes]

/-- The first version that has a feature. -/
def since : Feature → LanguageVersion
  | staticClasses | partialTypes => .v2
  | readonlyStructs | refStructs => .v7p2
  | fileTypes => .v11

/-- What messages call a feature. -/
def toText : Feature → String
  | staticClasses => "static classes"
  | partialTypes => "partial types"
  | readonlyStructs => "readonly structs"
  | refStructs => "ref structs"
  | fileTypes => "file types"

end Feature

/-- A version supports a feature from the version on that introduced it. -/
def LanguageVersion.supports (v : LanguageVersion) (f : Feature) : Bool := f.since ≤ v

theorem LanguageVersion.supports_mono {v w : LanguageVersion} (h : v ≤ w) {f : Feature}
    (hv : v.supports f) : w.supports f := by
  simp only [supports, decide_eq_true_eq] at hv ⊢
  exact Nat.le_trans hv h

end DeclTree
