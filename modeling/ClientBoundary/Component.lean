import ClientBoundary.Syntax.Node

/-! Which functions and classes are components. A class is one by what it extends; a function is one
if it returns elements and is named, wrapped or exported like one. -/
namespace ClientBoundary.Component

open Syntax

mutual

/-- Whether an expression may come to an element: it is one, or has one where its value comes
from. -/
def isElement : Node → Bool
  | ⟨.parenthesized, _, [inner], _, _⟩ => isElement inner
  | ⟨.jsxElement, _, _, _, _⟩ => true
  | ⟨.jsxFragment, _, _, _, _⟩ => true
  | ⟨.conditional, _, [_, consequent, alternate], _, _⟩ => isElement consequent || isElement alternate
  | ⟨.logical _, _, [_, right], _, _⟩ => isElement right
  | ⟨.sequence, _, items, _, _⟩ => endsInElement items
  | _ => false

def endsInElement : List Node → Bool
  | [] => false
  | [last] => isElement last
  | _ :: rest => endsInElement rest

end

/-- An element, or `null` where nothing is shown. -/
def isRenderOutput (expression : Node) : Bool :=
  isElement expression || expression.withoutParentheses.kind = .null

mutual

/-- Whether a statement, or one inside of it, returns what can be shown. -/
def returnsOutput : Node → Bool
  | ⟨.returnStatement, _, [argument], _, _⟩ => isRenderOutput argument
  | ⟨.block, _, items, _, _⟩ => someReturnsOutput items
  | ⟨.ifStatement, _, items, _, _⟩ => someReturnsOutput items
  | ⟨.switchStatement, _, items, _, _⟩ => someReturnsOutput items
  | ⟨.switchCase, _, items, _, _⟩ => someReturnsOutput items
  | ⟨.tryStatement, _, items, _, _⟩ => someReturnsOutput items
  | ⟨.catchClause, _, items, _, _⟩ => someReturnsOutput items
  | ⟨.labeledStatement, _, items, _, _⟩ => someReturnsOutput items
  | ⟨.forStatement, _, items, _, _⟩ => someReturnsOutput items
  | ⟨.forInStatement, _, items, _, _⟩ => someReturnsOutput items
  | ⟨.forOfStatement, _, items, _, _⟩ => someReturnsOutput items
  | ⟨.whileStatement, _, items, _, _⟩ => someReturnsOutput items
  | ⟨.doWhileStatement, _, items, _, _⟩ => someReturnsOutput items
  | _ => false

def someReturnsOutput : List Node → Bool
  | [] => false
  | node :: rest => returnsOutput node || someReturnsOutput rest

end

/-- Whether a function returns what can be shown. An arrow function without braces returns its
body. -/
def functionReturnsOutput (function : Node) : Bool :=
  match function.kind, function.part? .body with
  | .arrow true, some body => isRenderOutput body
  | _, some body => someReturnsOutput body.children
  | _, none => false

inductive Holder where
  | named (name : String)
  | wrapper (callee : Node)
  | defaultExport
  | method
  deriving Repr

/-- The kinds of nodes among which the holder of a function is looked for. -/
def isHolderKind : Kind → Bool
  | .declarator | .assignment _ | .call | .exportDefault | .method | .property _ | .field
  | .function _ _ | .arrow _ | .classNode _ _ => true
  | _ => false

def partSpan? (node : Node) (role : Role) : Option Span := (node.part? role).map (·.span)

def innerSpan? (node : Node) (role : Role) : Option Span :=
  (node.part? role).map (·.withoutParentheses.span)

/-- The name that a pattern is. -/
def boundName? (pattern : Node) : Option String :=
  match pattern.kind with
  | .binding name => some name
  | _ => none

/-- The name that is assigned to, or that of the member. -/
def targetName? (target : Node) : Option String :=
  match target.kind with
  | .identifier name _ => some name
  | .staticMember property => some property
  | _ => none

/-- What a node of a holder kind makes of the function with a span. -/
def Holder.at? (span : Span) (nearest : Node) : Option Holder :=
  match nearest.kind with
  | .declarator =>
    if innerSpan? nearest .init = some span then
      ((nearest.part? .target).bind boundName?).map .named
    else none
  | .assignment _ =>
    if innerSpan? nearest .right = some span then
      ((nearest.part? .target).bind targetName?).map .named
    else none
  | .call =>
    if partSpan? nearest .argument = some span then (nearest.part? .callee).map .wrapper else none
  | .exportDefault => if partSpan? nearest .value = some span then some .defaultExport else none
  | .method => if partSpan? nearest .value = some span then some .method else none
  | .property _ | .field => if innerSpan? nearest .value = some span then some .method else none
  | _ => none

/-- What the nearest node of a holder kind makes of the function with a span. -/
def Holder.of? (span : Span) (ancestors : List Node) : Option Holder :=
  (ancestors.find? (isHolderKind ·.kind)).bind (Holder.at? span)

def isComponentBase (name : String) : Bool := name = "Component" || name = "PureComponent"

def isWrapperName (name : String) : Bool := name = "memo" || name = "forwardRef"

/-- Components are written with a capital letter. -/
def isComponentName (name : String) : Bool := name.toList.head?.any Char.isUpper

/-- Whether an expression is one of some names, by itself or taken from the library object. -/
def namesFrom (pragma : String) (test : String → Bool) (expression : Node) : Bool :=
  match expression.kind with
  | .identifier name _ => test name
  | .staticMember property =>
    ((expression.part? .object).bind (·.identifier?)) = some pragma && test property
  | _ => false

def isClassComponent (pragma : String) (node : Node) : Bool :=
  (node.part? .superClass).any fun base =>
    namesFrom pragma isComponentBase base.withoutParentheses

/-- Whether a function that may have a name of its own can be a component where it stands. -/
def Holder.accepts (pragma : String) (ownName : Option String) : Option Holder → Bool
  | some .method => false
  | some (.named name) => isComponentName (ownName.getD name)
  | some (.wrapper callee) => namesFrom pragma isWrapperName callee || ownName.any isComponentName
  | some .defaultExport => true
  | none => ownName.any isComponentName

def isFunctionComponent (pragma : String) (ownName : Option String) (function : Node)
    (ancestors : List Node) : Bool :=
  functionReturnsOutput function &&
    Holder.accepts pragma ownName (Holder.of? function.span ancestors)

/-- Whether a node is a component, given the nodes around it, innermost first. -/
def isComponent (pragma : String) (node : Node) (ancestors : List Node) : Bool :=
  match node.kind with
  | .classNode _ _ => isClassComponent pragma node
  | .function _ name => isFunctionComponent pragma name node ancestors
  | .arrow _ => isFunctionComponent pragma none node ancestors
  | _ => false

def enclosing? (pragma : String) : List Node → Option Node
  | [] => none
  | node :: outer => if isComponent pragma node outer then some node else enclosing? pragma outer

end ClientBoundary.Component
