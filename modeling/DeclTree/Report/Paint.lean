import DeclTree.Diagnostic
import DeclTree.Text.Replace
/-!
Painting pieces of a line for a terminal. A painted text is closed by a reset, and where the text has
a reset of its own the paint is opened again after it.
-/
namespace DeclTree

/-- The parts of a report that are painted. -/
inductive Paint
  | header | kind | name
  | severity (s : Severity)
  deriving DecidableEq, Repr

namespace Paint

/-- Ends all paint. -/
def reset : String := "\x1b[0m"

/-- The parameters of the sequence that opens a paint. -/
def parameters : Paint → String
  | header => "4"
  | kind => "36"
  | name => "1"
  | severity .error => "1;31"
  | severity .warning => "1;33"
  | severity .suggestion => "1;34"
  | severity .message => "1;36"

def opening (p : Paint) : String := "\x1b[" ++ p.parameters ++ "m"

/-- The text in a paint, if there is color. -/
def apply (color : Bool) (p : Paint) (text : String) : String :=
  if color then p.opening ++ Text.replaceAll reset (reset ++ p.opening) text ++ reset else text

end Paint

end DeclTree
