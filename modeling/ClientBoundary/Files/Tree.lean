import ClientBoundary.Text.PathName
import ClientBoundary.Text.Utf8

/-! Folders and files, as a working directory holds them. -/
namespace ClientBoundary

inductive Contents where
  | text (text : String)
  /-- Bytes that are no text. -/
  | binary (bytes : List UInt8)
  deriving DecidableEq, Repr

def Contents.ofBytes (bytes : List UInt8) : Contents :=
  match Utf8.decode? bytes with
  | some decoded => .text decoded
  | none => .binary bytes

def Contents.text? : Contents → Option String
  | .text held => some held
  | .binary _ => none

def Contents.shown : Contents → String
  | .text held => held
  | .binary bytes => Utf8.decodeLossy bytes

structure File where
  contents : Contents
  isWritable : Bool := true
  deriving Repr

inductive FileTree where
  | file (file : File)
  | folder (entries : List (String × FileTree))
  deriving Repr

namespace FileTree

def entries : FileTree → List (String × FileTree)
  | .file _ => []
  | .folder entries => entries

def isFolder : FileTree → Bool
  | .file _ => false
  | .folder _ => true

def child? (tree : FileTree) (name : String) : Option FileTree :=
  (tree.entries.find? (·.1 = name)).map (·.2)

def at? (tree : FileTree) : List String → Option FileTree
  | [] => some tree
  | name :: rest => (tree.child? name).bind (at? · rest)

/-- The same entries with one changed, or added at the end. -/
def changeEntry (name : String) (change : Option FileTree → FileTree) :
    List (String × FileTree) → List (String × FileTree)
  | [] => [(name, change none)]
  | (other, tree) :: rest =>
    if other = name then (name, change (some tree)) :: rest
    else (other, tree) :: changeEntry name change rest

/-- Puts something at some names below, making folders on the way. -/
def put (tree : FileTree) (item : FileTree) : List String → FileTree
  | [] => item
  | name :: rest =>
    .folder (changeEntry name (fun child => put (child.getD (.folder [])) item rest) tree.entries)

/-- The names that a path leads along from the top, as far as it stays below; `soFar` is in
reverse. -/
def namesAlong (soFar : List String) : List PathName.Step → Option (List String)
  | [] => some soFar.reverse
  | .root :: _ => none
  | .here :: rest => namesAlong soFar rest
  | .up :: rest =>
    match soFar with
    | [] => none
    | _ :: outer => namesAlong outer rest
  | .down name :: rest => namesAlong (name :: soFar) rest

def names? (path : String) : Option (List String) :=
  if path.isEmpty then none else namesAlong [] (PathName.steps path)

/-- What is at a path. Only folders can be written with a slash at the end. -/
def lookup? (tree : FileTree) (path : String) : Option FileTree := do
  let found ← tree.at? (← names? path)
  if path.endsWith "/" && !found.isFolder then none else some found

def file? (tree : FileTree) (path : String) : Option File :=
  match tree.lookup? path with
  | some (.file found) => some found
  | _ => none

/-- Overwrites a file that is there; nothing if that cannot be done. -/
def write? (tree : FileTree) (path text : String) : Option FileTree := do
  let found ← tree.file? path
  if found.isWritable then
    return tree.put (.file { found with contents := .text text }) (← names? path)
  else none

end FileTree

end ClientBoundary
