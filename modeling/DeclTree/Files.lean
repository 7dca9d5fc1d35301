import DeclTree.Text.Split
/-!
Files as a program sees them: what a path leads to, and what is written at its end, both relative to
a directory and by the same reading of `.`, `..` and empty components. The files below a directory
are listed in the order of their paths, whatever the order of its entries.
-/
namespace DeclTree

/-- What a path leads to. -/
inductive Entry
  | file (content : ByteArray)
  | directory (entries : List (String × Entry))

/-- What each path leads to, if it leads anywhere. -/
abbrev Files := String → Option Entry

namespace Entry

/-- Follows the components of a path from the first of a row of entries, in which each entry is
followed by the directory that it lies in. Every component, an empty one too, needs a directory. -/
def follow? : List Entry → List String → Option Entry
  | here :: _, [] => some here
  | directory entries :: above, name :: rest =>
    if name.isEmpty ∨ name = "." then follow? (directory entries :: above) rest
    else if name = ".." then follow? above rest
    else match entries.lookup name with
    | some entry => follow? (entry :: directory entries :: above) rest
    | none => none
  | _, _ => none

/-- What a path leads to from a directory. An empty path, and one that starts at the root of the
file system, lead nowhere. -/
def at? (root : Entry) (path : String) : Option Entry :=
  if path.isEmpty ∨ path.startsWith "/" then none else follow? [root] (Text.split '/' path)

/-- The entries of a directory; a file has none. -/
def entries : Entry → List (String × Entry)
  | file _ => []
  | directory entries => entries

/-- The same entries as a directory. -/
def asDirectory (here : Entry) : Entry := directory here.entries

/-- Changes what a row of names leads to. What is not there counts as an empty directory, and the
row makes directories on its way. -/
def update (change : Entry → Entry) : List String → Entry → Entry
  | [], here => change here
  | name :: rest, here =>
    let inner := (here.entries.lookup name).getD (directory [])
    directory (here.entries.filter (·.1 != name) ++ [(name, update change rest inner)])

/-- Changes what the components of a path lead to, from the directory that a row of names, the
innermost first, leads to. A directory that the path leaves again is made all the same. A path that
leaves the root changes nothing below it. -/
def changeFrom (change : Entry → Entry) : List String → List String → Entry → Entry
  | names, [], root => root.update change names.reverse
  | names, name :: rest, root =>
    if name.isEmpty ∨ name = "." then changeFrom change names rest root
    else if name = ".." then match names with
      | [] => root
      | _ :: above => changeFrom change above rest (root.update asDirectory names.reverse)
    else changeFrom change (name :: names) rest root

/-- Changes what a path leads to from a directory. -/
def changeAt (change : Entry → Entry) (root : Entry) (path : String) : Entry :=
  if path.isEmpty ∨ path.startsWith "/" then root
  else changeFrom change [] (Text.split '/' path) root

/-- Makes a directory at the end of a path. One that is there already keeps its entries. -/
def makeDirectory (root : Entry) (path : String) : Entry := root.changeAt asDirectory path

/-- Writes a file at the end of a path. -/
def writeFile (root : Entry) (path : String) (content : ByteArray) : Entry :=
  root.changeAt (fun _ => file content) path

mutual
/-- The paths from a directory to the files below it. -/
def paths : Entry → List (List String)
  | file _ => [[]]
  | directory entries => pathsOf entries

def pathsOf : List (String × Entry) → List (List String)
  | [] => []
  | (name, entry) :: rest => entry.paths.map (name :: ·) ++ pathsOf rest
end

end Entry

/-- The part of a file name after its last dot. A name that only begins with a dot has none. -/
def extension? (name : String) : Option String :=
  match (Text.split '.' name).reverse with
  | [] | [_] | [_, ""] => none
  | last :: _ => some last

/-- A path is before another if its first different component is. -/
def pathLe (p q : List String) : Bool := !decide (q < p)

/-- A directory joined with a path below it. -/
def joinPath (directory : String) (path : List String) : String :=
  let tail := "/".intercalate path
  if directory.endsWith "/" then directory ++ tail else directory ++ "/" ++ tail

end DeclTree
