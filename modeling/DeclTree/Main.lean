import DeclTree.Command.Run
/-!
The command on real files. What the run needs of the file system is read first; the run itself is a
function of it.
-/
namespace DeclTree.Command

/-- Reads what a path leads to, with everything below it. -/
partial def readEntry (path : String) : IO (Option Entry) := do
  let here := (← IO.currentDir) / path
  if ← here.isDir then
    let mut entries := #[]
    for item in ← here.readDir do
      if let some entry ← readEntry item.path.toString then
        entries := entries.push (item.fileName, entry)
    return some (.directory entries.toList)
  else if ← here.pathExists then
    return (← (IO.FS.readBinFile path).toBaseIO).toOption.map .file
  else
    return none

def readEntries (paths : List String) : IO (List (String × Entry)) := do
  let found ← paths.mapM fun path => return (path, ← readEntry path)
  return found.filterMap fun (path, entry) => entry.map (path, ·)

/-- What the paths that a run asks for lead to. -/
def readFiles (a : Arguments) : IO Files := do
  let named ← readEntries (a.config.toList ++ a.inputs)
  let files : Files := (named.lookup ·)
  let found ← match discover files a.inputs with
    | .ok paths => readEntries paths
    | .error _ => pure []
  return fun path => files path <|> found.lookup path

end DeclTree.Command

open DeclTree.Command in
def main (args : List String) : IO UInt32 := do
  let files ← match Arguments.read args with
    | .ok a => readFiles a
    | .error _ => pure fun _ => none
  let outcome := execute files args (← (← IO.getStdout).isTty)
  IO.print outcome.output
  IO.eprint outcome.errors
  return outcome.exitCode.toUInt32
