import ClientBoundary.Text.Bytes

/-! Edits of a text and fixes made of them. Several edits are carried out from the end of
the text to its start, so that the offsets of those still to come stay right. -/
namespace ClientBoundary

/-- Replaces the bytes from `start` to `stop` by `newText`. -/
structure TextEdit where
  start : Nat
  stop : Nat
  newText : String
  deriving DecidableEq, Repr

structure Fix where
  message : String
  edits : List TextEdit
  deriving DecidableEq, Repr

namespace TextEdit

def insert (offset : Nat) (text : String) : TextEdit := ⟨offset, offset, text⟩

def delete (start stop : Nat) : TextEdit := ⟨start, stop, ""⟩

/-- Two edits overlap when they share a byte, or are at the very same place: of two
insertions at one offset only one can be made. -/
def overlaps (a b : TextEdit) : Bool :=
  (a.start < b.stop && b.start < a.stop) || (a.start == b.start && a.stop == b.stop)

/-- The text after one edit. An edit that ends before it starts, or reaches past the text,
changes nothing; one that starts or ends inside a character has no result. -/
def applyTo? (edit : TextEdit) (text : List Char) : Option (List Char) :=
  if edit.start ≤ edit.stop ∧ edit.stop ≤ Text.byteLength text then do
    let (before, _) ← Text.cut? edit.start text
    let (_, after) ← Text.cut? edit.stop text
    return before ++ edit.newText.toList ++ after
  else some text

/-- Later starts first; edits with one start keep their order. -/
def fromTheEnd (edits : List TextEdit) : List TextEdit :=
  edits.mergeSort fun a b => b.start ≤ a.start

def applyAll? (edits : List TextEdit) (text : List Char) : Option (List Char) :=
  (fromTheEnd edits).foldlM (fun text edit => edit.applyTo? text) text

end TextEdit

namespace Fix

def single (message : String) (edit : TextEdit) : Fix := ⟨message, [edit]⟩

/-- The least stretch that holds every edit, and `[0, 0)` if there is none. -/
def range (fix : Fix) : Nat × Nat :=
  ((fix.edits.map (·.start)).min?.getD 0, (fix.edits.map (·.stop)).max?.getD 0)

def applyTo? (fix : Fix) (source : String) : Option String :=
  (TextEdit.applyAll? fix.edits source.toList).map String.ofList

/-- The edits of all fixes that go together: a fix with an edit that overlaps one already
taken is left out as a whole. -/
def accept (fixes : List Fix) : List TextEdit :=
  fixes.foldl (fun accepted fix =>
    if fix.edits.any fun edit => accepted.any (edit.overlaps ·) then accepted
    else accepted ++ fix.edits) []

def applyAll? (fixes : List Fix) (source : String) : Option String :=
  (TextEdit.applyAll? (accept fixes) source.toList).map String.ofList

end Fix

end ClientBoundary
