import ClientBoundary.Syntax.Node

/-! A tour of a syntax tree: a node is entered before its children and left after them, and scopes
open and close on the way. Whoever follows the tour knows the nodes and scopes around by keeping
two stacks, and makes a visit where something of interest stands. -/
namespace ClientBoundary.Syntax

inductive Move where
  | enter (node : Node)
  | openScope (id : Nat)
  | closeScope
  | leave

mutual

def moves : Node → List Move → List Move
  | ⟨kind, span, children, role, mark⟩, others =>
    let node : Node := ⟨kind, span, children, role, mark⟩
    match mark with
    | .scope id =>
      .enter node :: headMoves children
        (.openScope id :: restMoves children (.closeScope :: .leave :: others))
    | _ => .enter node :: allMoves children (.leave :: others)

def allMoves : List Node → List Move → List Move
  | [], others => others
  | node :: rest, others => moves node (allMoves rest others)

/-- The parts outside of the scope that their parent opens. -/
def headMoves : List Node → List Move → List Move
  | [], others => others
  | node :: rest, others =>
    if node.role = .head then moves node (headMoves rest others) else headMoves rest others

def restMoves : List Node → List Move → List Move
  | [], others => others
  | node :: rest, others =>
    if node.role = .head then restMoves rest others else moves node (restMoves rest others)

end

inductive Event where
  | enterProgram
  | exitProgram
  | construction (node : Node)
  /-- An access to a member, with the object that is accessed. -/
  | access (object : Node)
  | call (node : Node)
  | element (opening : Node)
  | classNode (node : Node)

def Event.of? (node : Node) : Option Event :=
  match node.kind with
  | .new => some (.construction node)
  | .staticMember _ | .computedMember => (node.part? .object).map .access
  | .call => some (.call node)
  | .jsxOpening => some (.element node)
  | .classNode _ _ => some (.classNode node)
  | _ => none

/-- An event with the nodes around it, innermost first, and the innermost scope. -/
structure Visit where
  event : Event
  ancestors : List Node
  scope : Nat

structure Surroundings where
  nodes : List Node := []
  scopes : List Nat := []

/-- The innermost scope; outside of all of them it is that of the module. -/
def Surroundings.scope (around : Surroundings) : Nat := around.scopes.head?.getD 0

def Surroundings.move (around : Surroundings) : Move → Surroundings
  | .enter node => { around with nodes := node :: around.nodes }
  | .openScope id => { around with scopes := id :: around.scopes }
  | .closeScope => { around with scopes := around.scopes.tail }
  | .leave => { around with nodes := around.nodes.tail }

/-- The visit that a move makes. A node is not among its own ancestors. -/
def Surroundings.visit? (around : Surroundings) : Move → Option Visit
  | .enter node => (Event.of? node).map (⟨·, around.nodes, around.scope⟩)
  | _ => none

def visitsAlong (around : Surroundings) : List Move → List Visit
  | [] => []
  | move :: rest =>
    match around.visit? move with
    | some visit => visit :: visitsAlong (around.move move) rest
    | none => visitsAlong (around.move move) rest

def visits (program : Node) : List Visit :=
  ⟨.enterProgram, [], 0⟩ :: visitsAlong {} (moves program []) ++ [⟨.exitProgram, [], 0⟩]

end ClientBoundary.Syntax
