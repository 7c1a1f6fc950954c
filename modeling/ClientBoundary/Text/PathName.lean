/-! Slash-separated path names, taken apart as text. -/
namespace ClientBoundary.PathName

inductive Step where
  | root
  | here
  | up
  | down (name : String)
  deriving DecidableEq, Repr

def Step.ofPart (part : String) : Step :=
  if part = "." then .here else if part = ".." then .up else .down part

/-- The pieces of a text between separators; there is always one. -/
def pieces (separator : Char) : List Char → List (List Char)
  | [] => [[]]
  | c :: rest =>
    if c = separator then [] :: pieces separator rest
    else match pieces separator rest with
      | first :: others => (c :: first) :: others
      | [] => [[c]]

/-- The steps of a path. Empty parts do not count, nor does `.` unless it is in front. -/
def steps (path : String) : List Step :=
  let parts := ((pieces '/' path.toList).filter (· ≠ [])).map String.ofList
  let further := fun (parts : List String) => (parts.filter (· ≠ ".")).map Step.ofPart
  if path.toList.head? = some '/' then .root :: further parts
  else match parts with
    | [] => []
    | first :: rest => .ofPart first :: further rest

def fileName? (path : String) : Option String :=
  match (steps path).getLast? with
  | some (.down name) => some name
  | _ => none

/-- Splits a file name at its last dot; a dot in front does not count. -/
def splitExtension (name : String) : String × Option String :=
  let reversed := name.toList.reverse
  let extension := reversed.takeWhile (· ≠ '.')
  match reversed.drop extension.length with
  | '.' :: stem@(_ :: _) => (String.ofList stem.reverse, some (String.ofList extension.reverse))
  | _ => (name, none)

def extension? (path : String) : Option String :=
  (fileName? path).bind fun name => (splitExtension name).2

def passes (path name : String) : Bool := (steps path).contains (.down name)

def Step.rank : Step → Nat
  | .root => 0
  | .here => 1
  | .up => 2
  | .down _ => 3

def Step.compare : Step → Step → Ordering
  | .down a, .down b => Ord.compare a b
  | a, b => Ord.compare a.rank b.rank

/-- Paths are in order step by step, so a folder comes right before what is in it. -/
def compareSteps : List Step → List Step → Ordering
  | [], [] => .eq
  | [], _ :: _ => .lt
  | _ :: _, [] => .gt
  | a :: as, b :: bs => (a.compare b).then (compareSteps as bs)

def compare (a b : String) : Ordering := compareSteps (steps a) (steps b)

def join (path name : String) : String :=
  if path.endsWith "/" then path ++ name else path ++ "/" ++ name

end ClientBoundary.PathName
