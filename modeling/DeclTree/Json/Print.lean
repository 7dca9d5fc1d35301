import DeclTree.Json.Basic
/-!
Writing JSON text, one item or member a line, with two spaces for each level.
-/
namespace DeclTree.Json

/-- How a character stands in a string: as it is, but for quotes, backslashes and control
characters. -/
def escape (c : Char) : List Char :=
  if c = '"' then ['\\', '"']
  else if c = '\\' then ['\\', '\\']
  else if c = '\x08' then ['\\', 'b']
  else if c = '\x0c' then ['\\', 'f']
  else if c = '\n' then ['\\', 'n']
  else if c = '\r' then ['\\', 'r']
  else if c = '\t' then ['\\', 't']
  else if c.toNat < 0x20 then
    ['\\', 'u', '0', '0', Nat.digitChar (c.toNat / 16), Nat.digitChar (c.toNat % 16)]
  else [c]

/-- A string in quotes. What has no text is written as half of a surrogate pair. -/
def quote : JsonText → List Char
  | some s => '"' :: s.toList.flatMap escape ++ ['"']
  | none => "\"\\ud800\"".toList

/-- A new line that is indented for a level. -/
def newLine (level : Nat) : List Char := '\n' :: List.replicate (2 * level) ' '

mutual
/-- The text of a value that begins on a line of a level. -/
def chars (level : Nat) : Json → List Char
  | null => "null".toList
  | bool true => "true".toList
  | bool false => "false".toList
  | nat n => Nat.toDigits 10 n
  | otherNumber spelling => spelling.toList
  | text s => quote s
  | array [] => "[]".toList
  | array (item :: items) =>
    '[' :: newLine (level + 1) ++ chars (level + 1) item ++ itemChars (level + 1) items ++
      newLine level ++ [']']
  | object [] => "\x7b\x7d".toList
  | object ((key, value) :: members) =>
    '{' :: newLine (level + 1) ++ quote key ++ [':', ' '] ++ chars (level + 1) value ++
      memberChars (level + 1) members ++ newLine level ++ ['}']

/-- The items after the first. -/
def itemChars (level : Nat) : List Json → List Char
  | [] => []
  | item :: items => ',' :: newLine level ++ chars level item ++ itemChars level items

/-- The members after the first. -/
def memberChars (level : Nat) : List (JsonText × Json) → List Char
  | [] => []
  | (key, value) :: members =>
    ',' :: newLine level ++ quote key ++ [':', ' '] ++ chars level value ++
      memberChars level members
end

def print (j : Json) : String := String.ofList (j.chars 0)

end DeclTree.Json
