import ClientBoundary.Syntax.Node
import ClientBoundary.Text.Edit

/-! The directive that makes a module a client module: where it stands, and how to add and remove
it. -/
namespace ClientBoundary.UseClient

open Syntax

def directiveText : String := "use client"

def directiveStatement : String := "'use client';"

/-- The line break that a text uses first; without one it is a line feed. -/
def lineEnding : List Char → String
  | '\r' :: '\n' :: _ => "\r\n"
  | '\n' :: _ => "\n"
  | _ :: rest => lineEnding rest
  | [] => "\n"

/-- The directive as it is inserted at an offset. Below the first line it gets a line of its own; an
offset that cannot be cut at counts as the start. -/
def insertedText (text : List Char) (offset : Nat) : String :=
  let before := ((Text.cut? offset text).map Prod.fst).getD []
  let ending := lineEnding text
  if before.any fun c => c == '\n' || c == '\r' then
    ending ++ directiveStatement ++ ending ++ ending
  else directiveStatement ++ ending ++ ending

def insertDirective (source : String) (offset : Nat) : Fix :=
  .single "Add the \"use client\" directive"
    (.insert offset (insertedText source.toList offset))

def removeDirective (directive : Span) : Fix :=
  .single "Remove the \"use client\" directive" (.delete directive.start directive.stop)

def firstDirective? (program : Node) : Option (String × Span) :=
  match program.children with
  | ⟨.directive value, span, _, _, _⟩ :: _ => some (value, span)
  | _ => none

/-- The span of the client directive, which counts only as the first one. -/
def clientDirective? (program : Node) : Option Span :=
  match firstDirective? program with
  | some (value, span) => if value = directiveText then some span else none
  | none => none

/-- Where the first statement starts, directives included. -/
def firstStatementStart (program : Node) : Nat :=
  (program.children.head?.map (·.span.start)).getD 0

end ClientBoundary.UseClient
