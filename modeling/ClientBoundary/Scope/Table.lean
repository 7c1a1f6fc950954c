import ClientBoundary.Text.Span

/-! Scopes and the names they declare. Scopes are numbered in the order in which they open, so a
scope has a greater number than the one around it, and the module itself has number 0. -/
namespace ClientBoundary.Scope

inductive BindingKind where
  | function
  | functionValuedVariable
  | variable
  | parameter
  | classBinding
  | other
  deriving DecidableEq, Repr

def BindingKind.isFunction : BindingKind → Bool
  | .function | .functionValuedVariable => true
  | _ => false

structure Binding where
  name : String
  kind : BindingKind
  /-- Whether values, and types, can refer to it. -/
  isValue : Bool := true
  isType : Bool := false
  /-- The name that a function expression gives itself, which any other declaration replaces. -/
  isOwnName : Bool := false
  deriving DecidableEq, Repr

structure Frame where
  owner : Span
  parent : Option Nat
  /-- Whether `var` declares here rather than further out. -/
  holdsVariables : Bool
  bindings : List Binding := []
  /-- Names of variables that were declared from in here for a scope further out. -/
  passed : List String := []
  deriving DecidableEq, Repr

def Frame.find? (frame : Frame) (name : String) : Option Binding :=
  frame.bindings.find? (·.name = name)

/-- A second declaration of a name adds to what can refer to it; the first one decides what it
is. -/
def Binding.merge (first second : Binding) : Binding :=
  if first.isOwnName then second
  else { first with
    isValue := first.isValue || second.isValue, isType := first.isType || second.isType }

def Frame.declare (frame : Frame) (binding : Binding) : Frame :=
  if (frame.find? binding.name).isSome then
    { frame with bindings := frame.bindings.map fun first =>
      if first.name = binding.name then first.merge binding else first }
  else if frame.passed.contains binding.name then frame
  else { frame with bindings := frame.bindings ++ [binding] }

def Frame.remove (frame : Frame) (name : String) : Frame :=
  { frame with bindings := frame.bindings.filter (·.name ≠ name) }

def Frame.pass (frame : Frame) (name : String) : Frame :=
  { frame with passed := name :: frame.passed }

abbrev Table := Array Frame

namespace Table

def parent? (table : Table) (scope : Nat) : Option Nat := (table[scope]?).bind (·.parent)

/-- A scope and those around it, innermost first, as far as a number of steps goes. -/
def chainWithin (table : Table) : Nat → Nat → List Nat
  | 0, _ => []
  | steps + 1, scope =>
    scope :: match table.parent? scope with
      | some outer => chainWithin table steps outer
      | none => []

def chain (table : Table) (scope : Nat) : List Nat := table.chainWithin (scope + 1) scope

def bindingIn (table : Table) (scope : Nat) (name : String) : Option Binding :=
  (table[scope]?).bind (·.find? name)

/-- The first of some scopes that declares a name, and what as. -/
def firstBinding (table : Table) (scopes : List Nat) (name : String) : Option (Nat × Binding) :=
  scopes.findSome? fun scope => (table.bindingIn scope name).map (scope, ·)

/-- A name as seen from a scope: only the scope itself and the one right around it are looked at. -/
def visibleFrom (table : Table) (scope : Nat) (name : String) : Option (Nat × Binding) :=
  table.firstBinding (scope :: (table.parent? scope).toList) name

def update (table : Table) (scope : Nat) (change : Frame → Frame) : Table :=
  table.modify scope change

def declare (table : Table) (scope : Nat) (binding : Binding) : Table :=
  table.update scope (·.declare binding)

/-- The scopes that a `var` passes on its way out, and the one it comes to. -/
def passage (table : Table) : List Nat → List Nat × Option Nat
  | [] => ([], none)
  | scope :: outer =>
    if (table[scope]?).any (·.holdsVariables) then ([], some scope)
    else
      let (passed, target) := table.passage outer
      (scope :: passed, target)

/-- Declares a `var`. A declaration of its name that it meets on the way goes out with it, unless
the name is known there. -/
def declareVariable (table : Table) (scope : Nat) (binding : Binding) : Table :=
  match table.passage (table.chain scope) with
  | (_, none) => table
  | (passed, some target) =>
    let name := binding.name
    let met := passed.find? fun scope => (table[scope]?).any fun frame =>
      (frame.find? name).isSome || frame.passed.contains name
    let table := match met with
      | none => table.declare target binding
      | some scope => match table.bindingIn scope name with
        | none => table
        | some inner =>
          let table := table.update scope (·.remove name)
          if (table.bindingIn target name).isSome then table else table.declare target inner
    passed.foldl (fun table scope => table.update scope (·.pass name)) table

end Table

end ClientBoundary.Scope
