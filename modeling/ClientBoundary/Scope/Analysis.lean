import ClientBoundary.Scope.Table
import ClientBoundary.Syntax.Node

/-! Scopes of a syntax tree. A first pass opens the scopes and declares names in source order; a
second one looks up every reference and marks those that nothing in the module answers. -/
namespace ClientBoundary.Scope

open Syntax

/-- Where a declaration stands: the scope, what a bound name is declared as there, and whether it is
declared by `var`. -/
structure Place where
  scope : Nat
  kind : BindingKind := .other
  isVar : Bool := false
  /-- Right inside of a catch clause, whose parameter the block takes over. -/
  inCatch : Bool := false

def opensScope : Kind → Bool
  | .program | .block | .forStatement | .forInStatement | .forOfStatement | .switchStatement
  | .withStatement | .catchClause | .function _ _ | .arrow _ | .classNode _ _ | .staticBlock
  | .enumBody | .namespaceNode _ _ | .globalAugmentation | .interface _ | .typeAlias _
  | .signature => true
  | _ => false

def holdsVariables : Kind → Bool
  | .program | .function _ _ | .arrow _ | .staticBlock | .namespaceNode _ _
  | .globalAugmentation => true
  | _ => false

def isFunctionLiteral (node : Node) : Bool :=
  match node.kind with
  | .function _ _ | .arrow _ => true
  | _ => false

/-- A variable with a plain name that starts out as a function stands for it. -/
def declaratorKind (declarator : Node) : BindingKind :=
  let named := (declarator.part? .target).any fun target => match target.kind with
    | .binding _ => true
    | _ => false
  let isFunction := (declarator.part? .init).any (isFunctionLiteral ·.withoutParentheses)
  if named && isFunction then .functionValuedVariable else .variable

/-- The name that a node declares in the scope around it. -/
def outerBinding? (place : Place) : Kind → Option Binding
  | .binding name => some { name, kind := place.kind }
  | .function true (some name) => some { name, kind := .function }
  | .classNode true (some name) => some { name, kind := .classBinding, isType := true }
  | .importBinding name typeOnly => some { name, kind := .other, isValue := !typeOnly, isType := true }
  | .importAlias name typeOnly => some { name, kind := .other, isValue := !typeOnly, isType := true }
  | .enum name => some { name, kind := .other, isType := true }
  | .enumMember name => some { name, kind := .other, isType := true }
  | .namespaceNode (some name) hasValues =>
    some { name, kind := .other, isValue := hasValues, isType := false }
  | .typeAlias name => some { name, kind := .other, isValue := false, isType := true }
  | .interface name => some { name, kind := .other, isValue := false, isType := true }
  | .typeParameter name => some { name, kind := .other, isValue := false, isType := true }
  | _ => none

/-- The name that an expression declares inside of itself. -/
def innerBinding? : Kind → Option Binding
  | .function false (some name) => some { name, kind := .function, isOwnName := true }
  | .classNode false (some name) => some { name, kind := .classBinding, isType := true }
  | _ => none

def declareIn (place : Place) (binding : Binding) (table : Table) : Table :=
  if place.isVar then table.declareVariable place.scope binding
  else table.declare place.scope binding

def declareOuter (place : Place) (kind : Kind) (table : Table) : Table :=
  match outerBinding? place kind with
  | some binding => declareIn place binding table
  | none => table

/-- What a scope takes from the one around it: the block of a catch clause takes the parameter. -/
def takenOver (place : Place) (kind : Kind) (table : Table) : List Binding :=
  if place.inCatch && kind = .block then ((table[place.scope]?).map (·.bindings)).getD [] else []

/-- Opens a scope for a node. The first one, that of the module, has none around it. -/
def openScope (place : Place) (node : Node) (table : Table) : Table :=
  let taken := takenOver place node.kind table
  let table := if taken.isEmpty then table
    else table.update place.scope fun frame => { frame with bindings := [] }
  let opened : Frame :=
    { owner := node.span
      parent := if table.isEmpty then none else some place.scope
      holdsVariables := holdsVariables node.kind
      bindings := taken ++ (innerBinding? node.kind).toList }
  table.push opened

/-- Where the children of a node stand that open no scope of their own. -/
def innerPlace (place : Place) (node : Node) : Place :=
  let place := { place with inCatch := node.kind = .catchClause }
  match node.kind with
  | .variables keyword => { place with isVar := keyword = .varWord }
  | .declarator => { place with kind := declaratorKind node }
  | .parameter => { place with kind := .parameter, isVar := false }
  | .restParameter | .catchParameter => { place with kind := .other, isVar := false }
  | _ => place

mutual

/-- Declares all names of a tree and notes on each node the scope that it opens, if any. -/
def bind (place : Place) : Node → Table → Node × Table
  | ⟨kind, span, children, role, mark⟩, table =>
    let node : Node := ⟨kind, span, children, role, mark⟩
    let table := declareOuter place kind table
    if opensScope kind then
      let (heads, table) := bindHeads place children table
      let id := table.size
      let table := openScope place node table
      let (rest, table) := bindRest (innerPlace { scope := id } node) children table
      (⟨kind, span, heads ++ rest, role, .scope id⟩, table)
    else
      let (parts, table) := bindAll (innerPlace place node) children table
      (⟨kind, span, parts, role, .plain⟩, table)

def bindAll (place : Place) : List Node → Table → List Node × Table
  | [], table => ([], table)
  | node :: rest, table =>
    let (node, table) := bind place node table
    let (rest, table) := bindAll place rest table
    (node :: rest, table)

/-- The parts that stand outside of the scope that their parent opens. -/
def bindHeads (place : Place) : List Node → Table → List Node × Table
  | [], table => ([], table)
  | node :: rest, table =>
    if node.role = .head then
      let (node, table) := bind place node table
      let (rest, table) := bindHeads place rest table
      (node :: rest, table)
    else bindHeads place rest table

def bindRest (place : Place) : List Node → Table → List Node × Table
  | [], table => ([], table)
  | node :: rest, table =>
    if node.role = .head then bindRest place rest table
    else
      let (node, table) := bind place node table
      let (rest, table) := bindRest place rest table
      (node :: rest, table)

end

/-- Whether a reference can mean a declaration. -/
def Binding.answers (binding : Binding) : Use → Bool
  | .value => binding.isValue
  | .type => binding.isType
  | .valueOrType => binding.isValue || binding.isType
  | .qualifier => true

/-- Whether some scope around declares what a reference means. -/
def resolves (table : Table) (scopes : List Nat) (name : String) (use : Use) : Bool :=
  scopes.any fun scope => (table.bindingIn scope name).any (·.answers use)

mutual

/-- Marks the references that are free, given the scopes around, innermost first. -/
def resolve (table : Table) (scopes : List Nat) : Node → Node
  | ⟨kind, span, children, role, mark⟩ =>
    let inner := match mark with
      | .scope id => id :: scopes
      | _ => scopes
    let mark := match kind with
      | .identifier name use => if resolves table scopes name use then mark else .free
      | _ => mark
    ⟨kind, span, resolveAll table scopes inner children, role, mark⟩

def resolveAll (table : Table) (outer inner : List Nat) : List Node → List Node
  | [] => []
  | node :: rest =>
    let scopes := if node.role = .head then outer else inner
    resolve table scopes node :: resolveAll table outer inner rest

end

def analyze (program : Node) : Node × Table :=
  let (tree, table) := bind { scope := 0 } program #[]
  (resolve table [] tree, table)

/-! References in source order. -/

structure Reference where
  name : String
  offset : Nat
  isFree : Bool
  scope : Nat
  deriving DecidableEq, Repr

mutual

def references (scope : Nat) : Node → List Reference → List Reference
  | ⟨kind, span, children, _, mark⟩, others =>
    let inner := match mark with
      | .scope id => id
      | _ => scope
    let below := referencesOfAll scope inner children others
    match kind with
    | .identifier name _ => ⟨name, span.start, mark = .free, scope⟩ :: below
    | _ => below

def referencesOfAll (outer inner : Nat) : List Node → List Reference → List Reference
  | [], others => others
  | node :: rest, others =>
    references (if node.role = .head then outer else inner) node
      (referencesOfAll outer inner rest others)

end

/-- Names that are referred to in a scope or one inside of it and that nothing in the module
declares. -/
def freeNames (table : Table) (references : List Reference) (scope : Nat) : List String :=
  (references.filter fun reference =>
    reference.isFree && (scope = 0 || (table.chain reference.scope).contains scope)).map (·.name)

end ClientBoundary.Scope
