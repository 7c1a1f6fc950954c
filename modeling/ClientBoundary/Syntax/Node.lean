import ClientBoundary.Text.Span

/-! The syntax tree of a module. Every node has one shape: what it is, where it is, which part
of its parent it plays, and its children in source order. Parentheses and type wrappers are
nodes of their own; of a type only its extent is kept. -/
namespace ClientBoundary.Syntax

inductive VariableKeyword where
  | varWord
  | letWord
  | constWord
  | usingWord
  deriving DecidableEq, Repr

inductive Use where
  | value
  | type
  | valueOrType
  | qualifier
  deriving DecidableEq, Repr

inductive Kind where
  | program
  | directive (value : String)
  -- statements
  | expressionStatement
  | block
  | emptyStatement
  | debuggerStatement
  | ifStatement
  | whileStatement
  | doWhileStatement
  | forStatement
  | forInStatement
  | forOfStatement
  | returnStatement
  | throwStatement
  | breakStatement
  | continueStatement
  | labeledStatement
  | withStatement
  | switchStatement
  | switchCase
  | tryStatement
  | catchClause
  | catchParameter
  | variables (keyword : VariableKeyword)
  | declarator
  -- functions and classes; `declares` tells a declaration from an expression
  | function (declares : Bool) (name : Option String)
  | arrow (isExpression : Bool)
  | parameters
  | parameter
  | restParameter
  | functionBody
  | classNode (declares : Bool) (name : Option String)
  | classBody
  | method
  | field
  | accessorField
  | staticBlock
  | indexSignature
  | decorator
  -- binding patterns
  | binding (name : String)
  | objectPattern
  | arrayPattern
  | patternProperty
  | patternDefault
  | patternRest
  -- expressions
  | identifier (name : String) (use : Use)
  | this
  | super
  | null
  | string (value : String)
  | literal
  | template
  | taggedTemplate
  | array (trailingComma : Bool)
  | object (trailingComma : Bool)
  | property (isMethod : Bool)
  /-- `name = default` in an object, good only where the object turns out to be a target. -/
  | shorthandDefault
  | spread
  | propertyName (text : String)
  | unary
  | update
  | binary
  | logical (coalesces : Bool)
  | conditional
  | assignment (plain : Bool)
  | sequence
  | parenthesized
  | call
  | new
  | staticMember (property : String)
  | computedMember
  | privateMember
  /-- The whole of an access with `?.` in it. -/
  | chain
  | await
  | yield
  | importCall
  | metaProperty
  | privateIn
  -- assignment targets
  | objectTarget
  | arrayTarget
  | targetProperty
  | targetDefault
  | targetRest
  -- elements
  | jsxElement
  | jsxFragment
  | jsxOpening
  | jsxClosing
  | jsxAttribute
  | jsxSpreadAttribute
  | jsxContainer
  | jsxSpreadChild
  | jsxText
  | jsxName (text : String)
  | jsxMemberName
  -- imports and exports
  | importDeclaration
  | importBinding (name : String) (typeOnly : Bool)
  | exportNamed
  | exportSpecifier (exported : String)
  | exportDefault
  | exportAll (exported : Option String)
  | exportAssignment
  | exportNamespace
  | importAlias (name : String) (typeOnly : Bool)
  -- types
  | type
  | typeArguments
  | typeParameters
  | typeParameter (name : String)
  | asType
  | satisfiesType
  | nonNull
  | typeAssertion
  | instantiation
  | typeAlias (name : String)
  | interface (name : String)
  | heritage
  | implements
  | signature
  | propertySignature
  | enum (name : String)
  | enumBody
  | enumMember (name : String)
  /-- A namespace; without a name it is a module named by a string. -/
  | namespaceNode (name : Option String) (hasValues : Bool)
  | globalAugmentation
  deriving DecidableEq, Repr

/-- The part that a node plays in its parent. `head` parts are outside the scope that the parent
opens. -/
inductive Role where
  | item
  | head
  | callee
  | argument
  | object
  | superClass
  | target
  | init
  | key
  | value
  | body
  | consequent
  | alternate
  | right
  deriving DecidableEq, Repr

/-- What scope analysis adds to a node: the scope that it opens, or that it is a reference to
which no declaration of the module answers. -/
inductive Mark where
  | plain
  | scope (id : Nat)
  | free
  deriving DecidableEq, Repr

structure Node where
  kind : Kind
  span : Span
  children : List Node := []
  role : Role := .item
  mark : Mark := .plain
  deriving Repr, BEq

namespace Node

instance : Inhabited Node := ⟨{ kind := .emptyStatement, span := ⟨0, 0⟩ }⟩

def inRole (node : Node) (role : Role) : Node := { node with role }

def part? (node : Node) (role : Role) : Option Node :=
  node.children.find? (·.role = role)

def scope? (node : Node) : Option Nat :=
  match node.mark with
  | .scope id => some id
  | _ => none

def isFree (node : Node) : Bool := node.mark = .free

/-- The expression inside any number of parentheses. -/
def withoutParentheses : Node → Node
  | ⟨.parenthesized, _, [inner], _, _⟩ => inner.withoutParentheses
  | node => node

def identifier? (node : Node) : Option String :=
  match node.kind with
  | .identifier name _ => some name
  | _ => none

end Node

end ClientBoundary.Syntax
