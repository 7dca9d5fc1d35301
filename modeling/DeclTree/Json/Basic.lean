/-!
JSON values. An object is a list of members in the order of the text, with repeated keys as they
stand; reading a record out of an object is where repetition matters.
-/
namespace DeclTree

/-- The text of a JSON string. A string with an escape for half of a surrogate pair alone is
well-formed but stands for no text. -/
abbrev JsonText := Option String

inductive Json
  | null
  | bool (b : Bool)
  | nat (n : Nat)
  /-- A number that is negative or has a fraction or an exponent, as it is spelled. -/
  | otherNumber (spelling : String)
  | text (s : JsonText)
  | array (items : List Json)
  | object (members : List (JsonText × Json))

namespace Json

instance : Inhabited Json := ⟨null⟩

/-- The string with the given text. -/
def str (s : String) : Json := text (some s)

/-- The object with the given keys and values. -/
def record (members : List (String × Json)) : Json :=
  object (members.map fun (key, value) => (some key, value))

def ofOption {α : Type} (encode : α → Json) : Option α → Json
  | some x => encode x
  | none => null

def ofList {α : Type} (encode : α → Json) (xs : List α) : Json := array (xs.map encode)

end Json

end DeclTree
