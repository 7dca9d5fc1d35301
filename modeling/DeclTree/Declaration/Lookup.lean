import DeclTree.Declaration.Basic
import DeclTree.Text.Split
/-!
Looking up a type by its dotted path. The segments but for the last name namespaces or enclosing
types; where several declarations have the same name the search goes on below all of them.
-/
namespace DeclTree

namespace Declaration

/-- The declarations below those of a row that have the name, in order. -/
def descend (name : String) (row : List Declaration) : List Declaration :=
  (row.filter (·.name == name)).flatMap (·.children)

/-- The first type of a row with the name. -/
def typeNamed? (name : String) (row : List Declaration) : Option TypeDeclaration :=
  (row.filter (·.name == name)).findSome? (·.type?)

/-- The first type that a list of names leads to from a row. -/
def find? (row : List Declaration) : List String → Option TypeDeclaration
  | [] => none
  | [name] => typeNamed? name row
  | name :: path => find? (descend name row) path

end Declaration

namespace RootDeclaration

/-- The first type with the dotted path, in source order. -/
def findType? (r : RootDeclaration) (path : String) : Option TypeDeclaration :=
  Declaration.find? r.children (Text.segments path)

end RootDeclaration

end DeclTree
