import ClientBoundary.Files.Tree
import ClientBoundary.Files.Wildcard

/-! Files by pattern: `*`, `?` and brackets within a name, and `**` for any number of folders. -/
namespace ClientBoundary.Glob

inductive Part where
  | literal (name : String)
  | wild (pattern : List Wildcard)
  /-- Any way down. -/
  | anyDepth
  deriving DecidableEq, Repr

/-- The characters up to a closing bracket, of which the first may be a bracket itself. -/
def bracketBody? : List Char → Option (List Char × List Char)
  | [] => none
  | first :: rest =>
    match rest.dropWhile (· ≠ ']') with
    | _ :: after => some (first :: rest.takeWhile (· ≠ ']'), after)
    | [] => none

/-- A pattern for a name; nothing if it has an unclosed bracket or too many stars. -/
def wildcardsWithin : Nat → List Char → Option (List Wildcard)
  | 0, _ => none
  | _ + 1, [] => some []
  | _ + 1, '*' :: '*' :: _ => none
  | fuel + 1, '*' :: rest => (wildcardsWithin fuel rest).map (.many :: ·)
  | fuel + 1, '?' :: rest => (wildcardsWithin fuel rest).map (.one :: ·)
  | fuel + 1, '[' :: '!' :: rest => do
    let (body, rest) ← bracketBody? rest
    return .noneOf (Wildcard.ranges body) :: (← wildcardsWithin fuel rest)
  | fuel + 1, '[' :: rest => do
    let (body, rest) ← bracketBody? rest
    return .oneOf (Wildcard.ranges body) :: (← wildcardsWithin fuel rest)
  | fuel + 1, c :: rest => (wildcardsWithin fuel rest).map (.exactly c :: ·)

def part? (text : String) : Option Part :=
  if text = "**" then some .anyDepth
  else do
    let pattern ← wildcardsWithin (text.length + 1) text.toList
    return match Wildcard.literal? pattern with
      | some name => .literal name
      | none => .wild pattern

def Part.fits (name : String) : Part → Bool
  | .literal expected => expected = name
  | .wild pattern => Wildcard.fits pattern name.toList
  | .anyDepth => false

/-- Several `**` in a row are one. -/
def collapse : List Part → List Part
  | .anyDepth :: .anyDepth :: rest => collapse (.anyDepth :: rest)
  | part :: rest => part :: collapse rest
  | [] => []

/-- The parts of a pattern; a slash at the end asks for a folder. -/
def parts? (pattern : String) : Option (List Part × Bool) := do
  let texts := pattern.splitOn "/"
  let asksForFolder := pattern.endsWith "/"
  let parts ← (if asksForFolder then texts.dropLast else texts).mapM part?
  return (collapse parts, asksForFolder)

/-- A path below another one; those at the top have no `.` in front. -/
def joinBelow (path name : String) : String :=
  if path = "." then name else PathName.join path name

mutual

def descendants (path : String) : FileTree → List (String × String)
  | .file _ => []
  | .folder entries => descendantsOfAll path entries

def descendantsOfAll (path : String) : List (String × FileTree) → List (String × String)
  | [] => []
  | (name, tree) :: rest =>
    let inner := joinBelow path name
    (name, inner) :: descendants inner tree ++ descendantsOfAll path rest

end

/-- The files that parts of a pattern lead to from a path. -/
def filesFrom (tree : FileTree) : List Part → String → List String
  | [], path => if (tree.file? path).isSome then [path] else []
  | .literal name :: rest, path =>
    let next := joinBelow path name
    let isThere :=
      if name = "." || name = ".." then (tree.lookup? path).any (·.isFolder)
      else (tree.lookup? next).isSome
    if isThere then filesFrom tree rest next else []
  | .wild pattern :: rest, path =>
    let names := (((tree.lookup? path).map (·.entries)).getD []).map (·.1)
    let special := if pattern.head? = some (.exactly '.') then [".", ".."] else []
    ((names ++ special).filter (Wildcard.fits pattern ·.toList)).flatMap fun name =>
      filesFrom tree rest (joinBelow path name)
  | [.anyDepth], _ => []
  | .anyDepth :: next :: rest, path =>
    (((tree.lookup? path).map (descendants path)).getD []).flatMap fun (name, inner) =>
      if next.fits name then filesFrom tree rest inner else []

/-- The files that fit a pattern; none if it is not one, or is about the whole disk. -/
def files (tree : FileTree) (pattern : String) : List String :=
  if pattern.startsWith "/" then []
  else match parts? pattern with
    | some (parts, false) => filesFrom tree parts "."
    | _ => []

end ClientBoundary.Glob
