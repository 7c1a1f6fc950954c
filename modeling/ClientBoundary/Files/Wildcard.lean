/-! Patterns for single names, in which some characters stand for others. -/
namespace ClientBoundary

inductive Wildcard where
  | exactly (c : Char)
  | one
  | many
  | oneOf (ranges : List (Char × Char))
  | noneOf (ranges : List (Char × Char))
  deriving DecidableEq, Repr

namespace Wildcard

def inSome (ranges : List (Char × Char)) (c : Char) : Bool :=
  ranges.any fun (low, high) => low ≤ c && c ≤ high

def accepts : Wildcard → Char → Bool
  | .exactly expected, c => expected = c
  | .one, _ => true
  | .many, _ => true
  | .oneOf ranges, c => inSome ranges c
  | .noneOf ranges, c => !inSome ranges c

/-- A text and everything at its end, longest first. -/
def endings : List Char → List (List Char)
  | [] => [[]]
  | c :: rest => (c :: rest) :: endings rest

def fits : List Wildcard → List Char → Bool
  | [], text => text.isEmpty
  | .many :: rest, text => (endings text).any (fits rest)
  | card :: rest, c :: text => card.accepts c && fits rest text
  | _ :: _, [] => false

/-- Ranges in brackets: `a-z` is one, any other character stands for itself. -/
def ranges : List Char → List (Char × Char)
  | low :: '-' :: high :: rest => (low, high) :: ranges rest
  | c :: rest => (c, c) :: ranges rest
  | [] => []

def character? : Wildcard → Option Char
  | .exactly c => some c
  | _ => none

/-- The text, if it has no wildcards. -/
def literal? (pattern : List Wildcard) : Option String :=
  (pattern.mapM character?).map String.ofList

end Wildcard

end ClientBoundary
