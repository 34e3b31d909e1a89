import AfuBench.CommandLine.Execute

namespace AfuBench

def pathOf (l : Location) : String :=
  "/".intercalate (l.map String.ofList)

def findDirectories (path : String) : IO (List Location) := do
  let here ← IO.currentDir
  let l := FileStore.location path
  ((List.range (l.length + 1)).map (l.take ·)).filterM fun l => (here / pathOf l).isDir

def findFile (path : String) : IO (List (Location × List UInt8)) := do
  try
    let content ← IO.FS.readBinFile ((← IO.currentDir) / path)
    return [(FileStore.location path, content.toList)]
  catch _ => return []

def findFiles (paths : List String) : IO FileStore := do
  let directories ← paths.mapM findDirectories
  let files ← paths.mapM findFile
  return ⟨directories.flatten, files.flatten⟩

def storeChanges (old new : FileStore) : IO Unit := do
  let here ← IO.currentDir
  for (l, content) in new.files do
    if old.files.lookup l ≠ some content then
      IO.FS.writeBinFile (here / pathOf l) ⟨content.toArray⟩

end AfuBench

open AfuBench in
def main (args : List String) : IO UInt32 := do
  let paths := match Command.parse args with
    | .ok command => command.paths
    | .error _ => []
  let files ← findFiles paths
  let (outcome, changed) := Outcome.ofArguments args files
  outcome.out.forM IO.println
  outcome.err.forM IO.eprintln
  storeChanges files changed
  return outcome.code.toUInt32
