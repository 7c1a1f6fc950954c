import ClientBoundary.Cli.Run

/-! The command line on a real disk. The working directory is read as a whole, the run is computed,
and what it writes is written. -/
namespace ClientBoundary

/-- Reads what is below a folder. Links to folders are not followed. -/
partial def readEntries (entries : Array IO.FS.DirEntry) : IO (List (String × FileTree)) :=
  entries.toList.filterMapM fun entry => do
    match (← entry.path.symlinkMetadata).type with
    | .dir => return some (entry.fileName, .folder (← readEntries (← entry.path.readDir)))
    | _ =>
      if ← entry.path.isDir then return none
      try
        let bytes ← IO.FS.readBinFile entry.path
        return some (entry.fileName, .file { contents := .ofBytes bytes.toList })
      catch _ => return some (entry.fileName, .file { contents := .binary [] })

/-- Writes the files whose texts differ, and gives back those that cannot be written. -/
partial def writeChanges (place : String) (old new : FileTree) : IO (List String) := do
  match old, new with
  | .file old, .file new =>
    match new.contents with
    | .text text =>
      if old.contents = new.contents then return []
      try
        IO.FS.writeFile place text
        return []
      catch _ => return [place]
    | .binary _ => return []
  | old, new =>
    let failed ← new.entries.mapM fun (name, child) => do
      match old.child? name with
      | some other => writeChanges (if place = "." then name else place ++ "/" ++ name) other child
      | none => return []
    return failed.flatten

/-- Runs, and runs again without the files that turned out not to be writable. -/
partial def perform (folder : String) (words : List String) (tree : FileTree) :
    IO Cli.RunOutcome := do
  let outcome := Cli.run folder words tree
  match ← writeChanges "." tree outcome.tree with
  | [] => return outcome
  | failed =>
    let locked := failed.foldl (fun (tree : FileTree) path =>
      match tree.file? path, FileTree.names? path with
      | some file, some names => tree.put (.file { file with isWritable := false }) names
      | _, _ => tree) tree
    perform folder words locked

end ClientBoundary

open ClientBoundary in
def main (words : List String) : IO UInt32 := do
  let start ← IO.monoMsNow
  let folder ← IO.currentDir
  let tree := FileTree.folder (← readEntries (← folder.readDir))
  let outcome ← perform folder.toString words tree
  for note in outcome.notes do
    IO.eprintln note.text
  IO.print outcome.output
  if let some line := outcome.timedLine then
    IO.println (line ++ toString ((← IO.monoMsNow) - start) ++ "ms")
  return outcome.exitCode.toUInt32
