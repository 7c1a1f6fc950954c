import ClientBoundary.Files.Ignore

/-! All files below a path, less what is to be left alone. What is named itself is always taken. -/
namespace ClientBoundary.Walk

def dependencyFolder : String := "node_modules"

mutual

def below (levels : Ignore.Levels) (path : String) : FileTree → List String
  | .file _ => [path]
  | .folder entries => belowAll levels path entries

def belowAll (levels : Ignore.Levels) (path : String) : List (String × FileTree) → List String
  | [] => []
  | (name, tree) :: rest =>
    let others := belowAll levels path rest
    if Ignore.leavesAlone levels name tree.isFolder || name = dependencyFolder then others
    else below (Ignore.enter levels name tree) (PathName.join path name) tree ++ others

end

def files (tree : FileTree) (path : String) : List String :=
  match tree.lookup? path, FileTree.names? path with
  | some found, some names => below (Ignore.levelsFrom tree names) path found
  | _, _ => []

end ClientBoundary.Walk
