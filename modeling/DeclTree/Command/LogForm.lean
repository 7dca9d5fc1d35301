/-!
The forms of a log.
-/
namespace DeclTree.Command

inductive LogForm
  | text | tree | json
  deriving DecidableEq, Repr

namespace LogForm

/-- Reads the name of a form, in letters of any case. Anything else means plain text. Only ASCII
letters have the letters of these names as their small ones. -/
def ofText (s : String) : LogForm :=
  match s.map Char.toLower with
  | "tree" => tree
  | "json" => json
  | _ => text

/-- The name of a form as one word with a capital. -/
def name : LogForm → String
  | text => "Text"
  | tree => "Tree"
  | json => "Json"

end LogForm

end DeclTree.Command
