import ClientBoundary.Text.Span

/-! The part of a text that is shown around a span: whole lines, with some before and after. The
bytes are passed through once. -/
namespace ClientBoundary.Report

/-- What is known of the bytes up to `offset`. -/
structure Scan where
  offset : Nat := 0
  /-- Line breaks before the first line shown. -/
  line : Nat := 0
  /-- Bytes before the span on its line. -/
  column : Nat := 0
  /-- Starts of the lines that may be shown before that of the span, the first one in front. -/
  window : List Nat := []
  lineStart : Nat := 0
  /-- Lines shown after the span, once it is passed and its own line has ended. -/
  linesAfter : Nat := 0
  passed : Bool := false
  ended : Bool := false

def Scan.atBreak (scan : Scan) (start length before : Nat) : Scan :=
  let scan :=
    if scan.offset < start then
      let window := scan.window ++ [scan.lineStart]
      if window.length > before then
        { scan with column := 0, line := scan.line + 1, window := window.tail }
      else { scan with column := 0, window }
    else if scan.offset ≥ start + (length - 1) && scan.passed then
      if scan.ended then { scan with linesAfter := scan.linesAfter + 1 }
      else { scan with ended := true }
    else scan
  { scan with lineStart := scan.offset + 1 }

/-- Whether a line break at `offset` is one after the span. -/
def Scan.isAfter (scan : Scan) (start length : Nat) : Bool :=
  start ≤ scan.offset && scan.offset ≥ start + (length - 1) && scan.passed

def Scan.run (start length before after : Nat) : List UInt8 → Scan → Scan
  | [], scan => scan
  | 13 :: 10 :: rest, scan =>
    let scan := { scan with offset := scan.offset + 1 }
    let isAfter := scan.isAfter start length
    let scan := scan.atBreak start length before
    if isAfter && scan.linesAfter ≥ after then { scan with offset := scan.offset + 1 }
    else
      let isPassed := scan.offset ≥ start + length - 1
      let next := { scan with offset := scan.offset + 1, passed := scan.passed || isPassed }
      if isPassed && scan.linesAfter ≥ after then next else run start length before after rest next
  | byte :: rest, scan =>
    let isBreak := byte = 10 || byte = 13
    let isAfter := isBreak && scan.isAfter start length
    let scan :=
      if isBreak then scan.atBreak start length before
      else if scan.offset < start then { scan with column := scan.column + 1 }
      else scan
    if isAfter && scan.linesAfter ≥ after then { scan with offset := scan.offset + 1 }
    else
      let isPassed := scan.offset ≥ start + length - 1
      let next := { scan with offset := scan.offset + 1, passed := scan.passed || isPassed }
      if isPassed && scan.linesAfter ≥ after then next else run start length before after rest next

/-- The window around a span: where it starts and stops, the number of lines before it, and the
column of the span. -/
structure Window where
  start : Nat
  stop : Nat
  line : Nat
  column : Nat

/-- The window with some lines before and after a span; nothing if the text ends before the span
does. -/
def window? (text : List UInt8) (start length before after : Nat) : Option Window :=
  let scan := Scan.run start length before after text {}
  if scan.offset ≥ start + length - 1 then
    some {
      start := scan.window.head?.getD (if before = 0 then start else 0)
      stop := scan.offset
      line := scan.line
      column := scan.column }
  else none

end ClientBoundary.Report
