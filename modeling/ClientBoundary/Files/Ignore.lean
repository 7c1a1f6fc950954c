import ClientBoundary.Files.Tree
import ClientBoundary.Files.Wildcard

/-! Files that say which others to leave alone. A line is a pattern for names or paths below; the
last one that fits decides, and one with an exclamation mark asks for what it fits. -/
namespace ClientBoundary.Ignore

inductive Part where
  | name (pattern : List Wildcard)
  | anyDepth
  deriving DecidableEq, Repr

structure Line where
  asksFor : Bool
  foldersOnly : Bool
  /-- Alternatives, each a pattern for a whole path. -/
  patterns : List (List Part)
  deriving DecidableEq, Repr

inductive Verdict where
  | leave
  | take
  deriving DecidableEq, Repr

/-- The items between braces, and the text after them; `depth` braces are open inside. -/
def braceItems (depth : Nat) (item : List Char) :
    List Char → Option (List (List Char) × List Char)
  | [] => none
  | '\\' :: c :: rest => braceItems depth (c :: '\\' :: item) rest
  | c :: rest =>
    if c = '\x7b' then braceItems (depth + 1) (c :: item) rest
    else if c = '\x7d' then
      match depth with
      | 0 => some ([item.reverse], rest)
      | depth + 1 => braceItems depth (c :: item) rest
    else if c = ',' && depth = 0 then
      (braceItems 0 [] rest).map fun (items, rest) => (item.reverse :: items, rest)
    else braceItems depth (c :: item) rest

/-- All texts that a text with braces stands for; nothing if they do not match up. -/
def alternatives : Nat → List Char → Option (List (List Char))
  | 0, _ => none
  | _ + 1, [] => some [[]]
  | fuel + 1, '\\' :: c :: rest =>
    (alternatives fuel rest).map (·.map (['\\', c] ++ ·))
  | fuel + 1, c :: rest =>
    if c = '\x7b' then do
      let (items, rest) ← braceItems 0 [] rest
      let items ← items.mapM (alternatives fuel)
      let endings ← alternatives fuel rest
      return items.flatten.flatMap fun item => endings.map (item ++ ·)
    else if c = '\x7d' then none
    else (alternatives fuel rest).map (·.map (c :: ·))

/-- A class in brackets, of which the first character may be a bracket itself. -/
def classBody? : List Char → Option (List Char × List Char)
  | [] => none
  | first :: rest =>
    match rest.dropWhile (· ≠ ']') with
    | _ :: after => some (first :: rest.takeWhile (· ≠ ']'), after)
    | [] => none

/-- A pattern for a name; several stars are one. -/
def wildcards : Nat → List Char → Option (List Wildcard)
  | 0, _ => none
  | _ + 1, [] => some []
  | fuel + 1, '*' :: rest => (wildcards fuel rest).map (.many :: ·)
  | fuel + 1, '?' :: rest => (wildcards fuel rest).map (.one :: ·)
  | fuel + 1, '\\' :: c :: rest => (wildcards fuel rest).map (.exactly c :: ·)
  | _ + 1, ['\\'] => none
  | fuel + 1, '[' :: rest => do
    let (negated, rest) := match rest with
      | '!' :: rest => (true, rest)
      | '^' :: rest => (true, rest)
      | rest => (false, rest)
    let (body, rest) ← classBody? rest
    let ranges := Wildcard.ranges body
    return (if negated then .noneOf ranges else .oneOf ranges) :: (← wildcards fuel rest)
  | fuel + 1, c :: rest => (wildcards fuel rest).map (.exactly c :: ·)

def part? (text : List Char) : Option Part :=
  if text = ['*', '*'] then some .anyDepth
  else (wildcards (text.length + 1) text).map .name

def splitAtSlashes (part : List Char) : List Char → List (List Char)
  | [] => [part.reverse]
  | '/' :: rest => part.reverse :: splitAtSlashes [] rest
  | c :: rest => splitAtSlashes (c :: part) rest

/-- The parts of a pattern. One for names fits at any depth, and one that ends in `**` fits only
below. -/
def parts? (anchored : Bool) (text : List Char) : Option (List Part) := do
  let parts ← (splitAtSlashes [] text).mapM part?
  let parts := if anchored then parts else .anyDepth :: parts
  return if parts.getLast? = some .anyDepth && parts.length > 1 then parts ++ [.name [.many]]
    else parts

def trimEnd (text : List Char) : List Char :=
  (text.reverse.dropWhile Char.isWhitespace).reverse

/-- A line of an ignore file; nothing for comments, blank lines and what makes no sense. -/
def line? (text : List Char) : Option Line := do
  if text.head? = some '#' then none
  let text := if text.reverse.take 2 = [' ', '\\'] then text else trimEnd text
  if text.isEmpty then none
  let (asksFor, anchored, text) := match text with
    | '\\' :: '!' :: rest => (false, false, '!' :: rest)
    | '\\' :: '#' :: rest => (false, false, '#' :: rest)
    | '!' :: '/' :: rest => (true, true, rest)
    | '!' :: rest => (true, false, rest)
    | '/' :: rest => (false, true, rest)
    | text => (false, false, text)
  let (foldersOnly, text) := match text.reverse with
    | '/' :: '\\' :: rest => (true, rest.reverse)
    | '/' :: rest => (true, rest.reverse)
    | _ => (false, text)
  let anchored := anchored || text.contains '/'
  let texts ← alternatives (text.length + 1) text
  let patterns ← texts.mapM (parts? anchored)
  return ⟨asksFor, foldersOnly, patterns⟩

def lines (text : String) : List Line :=
  (text.splitOn "\n").filterMap fun line => line? line.toList

def fits : List Part → List String → Bool
  | [], names => names.isEmpty
  | .anyDepth :: rest, names => (fits.endings names).any (fits rest)
  | .name pattern :: rest, name :: names => Wildcard.fits pattern name.toList && fits rest names
  | .name _ :: _, [] => false
where
  endings : List String → List (List String)
    | [] => [[]]
    | name :: rest => (name :: rest) :: endings rest

def Line.fits (line : Line) (names : List String) (isFolder : Bool) : Bool :=
  (!line.foldersOnly || isFolder) && line.patterns.any (Ignore.fits · names)

/-- The verdict of the last line that fits. -/
def verdict? (lines : List Line) (names : List String) (isFolder : Bool) : Option Verdict :=
  (lines.reverse.find? (·.fits names isFolder)).map fun line =>
    if line.asksFor then .take else .leave

/-- What the files of one folder say about all below it. -/
structure Level where
  own : List Line
  git : List Line
  exclude : List Line
  isRepository : Bool

def linesAt (tree : FileTree) (names : List String) : List Line :=
  match tree.at? names with
  | some (.file file) => ((file.contents.text?).map lines).getD []
  | _ => []

def Level.ofFolder (tree : FileTree) : Level where
  own := linesAt tree [".ignore"]
  git := linesAt tree [".gitignore"]
  exclude := linesAt tree [".git", "info", "exclude"]
  isRepository := (tree.child? ".git").isSome

/-- A level with the names that lead from its folder to the current one. -/
abbrev Levels := List (Level × List String)

def firstVerdict (rules : Level → List Line) (levels : Levels) (name : String) (isFolder : Bool) :
    Option Verdict :=
  levels.findSome? fun (level, names) => verdict? (rules level) (names ++ [name]) isFolder

/-- The levels up to that of the innermost repository; none without a repository. -/
def repositoryLevels (levels : Levels) : Levels :=
  let outer := levels.dropWhile (!·.1.isRepository)
  if outer.isEmpty then []
  else levels.takeWhile (!·.1.isRepository) ++ outer.take 1

def verdictAt (levels : Levels) (name : String) (isFolder : Bool) : Option Verdict :=
  let git := repositoryLevels levels
  ((firstVerdict (·.own) levels name isFolder).or
    (firstVerdict (·.git) git name isFolder)).or (firstVerdict (·.exclude) git name isFolder)

/-- Names that start with a dot are hidden, unless they are asked for. -/
def leavesAlone (levels : Levels) (name : String) (isFolder : Bool) : Bool :=
  match verdictAt levels name isFolder with
  | some .leave => true
  | some .take => false
  | none => name.startsWith "."

def enter (levels : Levels) (name : String) (folder : FileTree) : Levels :=
  (Level.ofFolder folder, []) :: levels.map fun (level, names) => (level, names ++ [name])

def levelsAt (tree : FileTree) : List String → Levels → Levels
  | [], levels => levels
  | name :: rest, levels =>
    match tree.child? name with
    | some folder => levelsAt folder rest (enter levels name folder)
    | none => levels

def levelsFrom (tree : FileTree) (names : List String) : Levels :=
  levelsAt tree names [(Level.ofFolder tree, [])]

end ClientBoundary.Ignore
