import ClientBoundary.Report.JsonReport
import ClientBoundary.Report.Window
import ClientBoundary.Text.CharacterClass

/-! Results as text, for people: each diagnostic with the lines it is about. A span on one line is
underlined; one over several lines has an arrow at its side. -/
namespace ClientBoundary.Report

/-- A line of the window. Its length counts the line break too. -/
structure ShownLine where
  number : Nat
  offset : Nat
  length : Nat
  text : List Char

namespace ShownLine

def stop (line : ShownLine) : Nat := line.offset + line.length

def holds (line : ShownLine) (start length : Nat) : Bool :=
  line.offset ≤ start && start + length ≤ line.stop

/-- Whether the span starts on the line. An empty span counts as one byte. -/
def startsHere (line : ShownLine) (start : Nat) : Bool := line.offset ≤ start && start < line.stop

def endsHere (line : ShownLine) (start length : Nat) : Bool :=
  let last := start + max length 1
  line.offset < last && last ≤ line.stop

def goesThrough (line : ShownLine) (start length : Nat) : Bool :=
  start < line.offset && line.stop < start + max length 1

def touches (line : ShownLine) (start length : Nat) : Bool :=
  line.startsHere start || line.goesThrough start length || line.endsHere start length

/-- Whether the span is on this line and on others. -/
def sharesSpan (line : ShownLine) (start length : Nat) : Bool :=
  line.touches start length && !(line.startsHere start && line.endsHere start length)

end ShownLine

/-- The lines of a text that begins at `offset`, after `before` other lines; `line` has the
characters of the current line in reverse. A lone carriage return is no line break. -/
def shownLines (before offset lineStart : Nat) (line : List Char) : List Char → List ShownLine
  | [] => []
  | '\r' :: '\n' :: rest =>
    let stop := offset + 2
    ⟨before + 1, lineStart, stop - lineStart, line.reverse⟩ ::
      shownLines (before + 1) stop stop [] rest
  | c :: rest =>
    let stop := offset + c.utf8Size
    if c = '\n' then
      ⟨before + 1, lineStart, stop - lineStart, line.reverse⟩ ::
        shownLines (before + 1) stop stop [] rest
    else if rest.isEmpty then
      -- a carriage return at the very end does not make the line count
      let number := if c = '\r' then before else before + 1
      [⟨number, lineStart, stop - lineStart, (c :: line).reverse⟩]
    else shownLines before stop lineStart (c :: line) rest

def tabWidth : Nat := 4

/-- Characters with their widths. A tab reaches to the next stop; escape codes for colours have no
width. -/
def withWidths (column : Nat) (inCode : Bool) : List Char → List (Char × Nat)
  | [] => []
  | c :: rest =>
    if inCode then (c, 0) :: withWidths column (c ≠ 'm') rest
    else if c = '\t' then
      let width := tabWidth - column % tabWidth
      (c, width) :: withWidths (column + width) false rest
    else if c = '\x1b' then (c, 0) :: withWidths column true rest
    else (c, Text.columns c) :: withWidths (column + Text.columns c) false rest

def width (text : List Char) : Nat :=
  (withWidths 0 false text).foldl (fun total (_, columns) => total + columns) 0

def expandTabs (text : List Char) : List Char :=
  (withWidths 0 false text).flatMap fun (c, width) =>
    if c = '\t' then List.replicate width ' ' else [c]

/-- The characters that begin before a byte offset, and whether it cuts through the last one. -/
def charactersBefore : Nat → List Char → List Char × Bool
  | 0, _ => ([], false)
  | _, [] => ([], false)
  | n + 1, c :: rest =>
    if c.utf8Size ≤ n + 1 then
      let (more, cut) := charactersBefore (n + 1 - c.utf8Size) rest
      (c :: more, cut)
    else ([c], true)

/-- The column of a byte offset on a line. Inside of a character it is the first column of the
character or the one after it. The line break is one column wide. -/
def columnOf (line : ShownLine) (offset : Nat) (isStart : Bool) : Nat :=
  let index := offset - line.offset
  if index > Text.byteLength line.text then width line.text + 1
  else
    let (before, cut) := charactersBefore index line.text
    width (if cut && isStart then before.dropLast else before)

def blanks (n : Nat) : List Char := List.replicate n ' '

def underline (line : ShownLine) (start length : Nat) : List Char :=
  let first := columnOf line start true
  if length = 0 then blanks first ++ ['▲']
  else
    let last := max (columnOf line (start + length) false) (first + 1)
    blanks first ++ List.replicate (last - first) '─'

/-- The side of a line, if some line has a mark there. -/
def side (line : ShownLine) (start length : Nat) : List Char :=
  if !line.sharesSpan start length then blanks 4
  else if line.offset ≤ start then ['╭', '─', '▶', ' ']
  else if line.offset ≤ start + length && start + length ≤ line.stop then ['╰', '─', '▶', ' ']
  else if line.stop < start + length then ['│', ' ', ' ', ' ']
  else blanks 4

def padded (fieldWidth number : Nat) : List Char :=
  let digits := Nat.toDigits 10 number
  blanks (fieldWidth - digits.length) ++ digits

/-- The lines of a window with the marks of a span. -/
def markedLines (lines : List ShownLine) (numberWidth start length : Nat) : List (List Char) :=
  let hasSide := lines.any fun line => !line.holds start length && line.sharesSpan start length
  lines.flatMap fun line =>
    let text := [' '] ++ padded numberWidth line.number ++ [' ', '│', ' '] ++
      (if hasSide then side line start length else []) ++ expandTabs line.text
    if line.touches start length && line.holds start length then
      [text, [' '] ++ blanks numberWidth ++ [' ', '·', ' '] ++
        (if hasSide then blanks 4 else []) ++ underline line start length]
    else [text]

/-- The lines around a span, in a frame. -/
def snippet? (fileName : String) (text : List Char) (start length : Nat) :
    Option (List (List Char)) := do
  let bytes := text.flatMap String.utf8EncodeChar
  let place ← window? bytes start length 0 0
  let window ← window? bytes start length 1 1
  let shown ← Text.slice? window.start window.stop text
  let lines := shownLines window.line window.start window.start [] shown
  let numberWidth := (Nat.toDigits 10 ((lines.getLast?.map (·.number)).getD 0)).length
  let corner := blanks (numberWidth + 2)
  let heading := fileName.toList ++ [':'] ++ Nat.toDigits 10 (place.line + 1) ++ [':'] ++
    Nat.toDigits 10 (place.column + 1)
  return [corner ++ ['╭', '─', '['] ++ heading ++ [']']] ++
    markedLines lines numberWidth start length ++ [corner ++ ['╰', '─', '─', '─', '─']]

/-- A text behind a mark; its further lines are behind another one. -/
def labelled (first further : String) (text : String) : List (List Char) :=
  (text.splitOn "\n").zipIdx.map fun (line, i) =>
    if line.isEmpty then []
    else (if i = 0 then first else further).toList ++ line.toList

def severityMark : Severity → String
  | .error => "×"
  | .warning => "⚠"

/-- The drawing of a notice, if its span is in the text. -/
def drawing? (fileName : String) (text : List Char) (notice : Notice) : Option (List (List Char)) := do
  let snippet ← snippet? fileName text notice.labelStart notice.labelLength
  return [[]] ++ labelled ("  " ++ severityMark notice.severity ++ " ") "  │ " notice.message ++
    snippet ++ notice.help.toList.flatMap (labelled "  help: " "        ") ++ [[]]

def diagnosticText (fileName : String) (text : List Char) (diagnostic : Diagnostic) :
    List (List Char) :=
  (diagnostic.rule ++ "(" ++ diagnostic.messageId ++ ")").toList ::
    (drawing? fileName text diagnostic.notice).getD []

def text (results : List LintResult) (sources : Sources) : String :=
  String.ofList (results.flatMap fun result =>
    let source := (sources.text result.fileName).toList
    (result.diagnostics.flatMap (diagnosticText result.fileName source)).flatMap (· ++ ['\n']))

end ClientBoundary.Report
