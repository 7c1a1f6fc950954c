import ClientBoundary.Text.Bytes

/-! Lines and columns of byte offsets. Only a line feed ends a line, and a column counts
characters. The starts of all lines are found once and searched by halving. All numbers have 32 bits
and wrap around, the length of the text included. -/
namespace ClientBoundary

structure Position where
  line : Nat
  column : Nat
  deriving DecidableEq, Repr

structure LineIndex where
  text : List Char
  starts : Array UInt32

namespace LineIndex

/-- The offsets right after the line feeds of a text that begins at `offset`. -/
def startsAfter (offset : Nat) : List Char → List Nat
  | [] => []
  | c :: rest =>
    if c = '\n' then (offset + 1) :: startsAfter (offset + 1) rest
    else startsAfter (offset + c.utf8Size) rest

def ofText (text : List Char) : LineIndex :=
  ⟨text, ((0 :: startsAfter 0 text).map Nat.toUInt32).toArray⟩

/-- How many of the entries below `high` are at most `offset`, those below `low` being known
to be. -/
def countUpTo (starts : Array UInt32) (offset low high : Nat) : Nat :=
  if low < high then
    let middle := (low + high) / 2
    if (starts.getD middle 0).toNat ≤ offset then countUpTo starts offset (middle + 1) high
    else countUpTo starts offset low middle
  else low
termination_by high - low

/-- The position of an offset, counted from 1. An offset past the end is the end; one inside
a character has column 1. -/
def position (index : LineIndex) (offset : Nat) : Position :=
  let offset := min offset (Text.byteLength index.text).toUInt32.toNat
  let line := countUpTo index.starts offset 0 index.starts.size
  let start := (index.starts.getD (line - 1) 0).toNat
  let before := ((Text.slice? start offset index.text).map List.length).getD 0
  ⟨line.toUInt32.toNat, (before + 1).toUInt32.toNat⟩

end LineIndex

end ClientBoundary
