import ClientBoundary.Files.Glob
import ClientBoundary.Files.Walk

/-! The files that patterns stand for, each path once and in order. -/
namespace ClientBoundary.Files

def extensions : List String := ["js", "jsx", "mjs", "cjs", "ts", "tsx", "mts", "cts"]

def hasModuleExtension (path : String) : Bool :=
  (PathName.extension? path).any extensions.contains

def isGlob (pattern : String) : Bool :=
  pattern.toList.any fun c => c = '*' || c = '?' || c = '['

/-- The modules that one pattern stands for. A path without wildcards may be inside of a dependency
folder; a pattern with some leads into none. -/
def expand (tree : FileTree) (pattern : String) : List String :=
  if isGlob pattern then
    (Glob.files tree pattern).filter fun path =>
      hasModuleExtension path && !PathName.passes path Walk.dependencyFolder
  else (Walk.files tree pattern).filter hasModuleExtension

def inOrder (a b : String) : Bool := PathName.compare a b ≠ .gt

def withoutRepeats : List String → List String
  | a :: b :: rest =>
    if PathName.steps a = PathName.steps b then withoutRepeats (a :: rest)
    else a :: withoutRepeats (b :: rest)
  | paths => paths

def collect (tree : FileTree) (patterns : List String) : List String :=
  withoutRepeats ((patterns.flatMap (expand tree)).mergeSort inOrder)

end ClientBoundary.Files
