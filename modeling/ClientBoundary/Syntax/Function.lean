import ClientBoundary.Syntax.Signature

/-! Functions, from their parameters to the end of their bodies. -/
namespace ClientBoundary.Syntax

/-- Leading statements that are only a string are directives. -/
def markDirectives : List Node → List Node
  | [] => []
  | node :: rest =>
    match node.kind, node.children with
    | .expressionStatement, [⟨.string value, _, _, _, _⟩] =>
      { node with kind := .directive value, children := [] } :: markDirectives rest
    | _, _ => node :: rest

namespace Parser

def statements (g : Grammar) : Parser (List Node) :=
  many do
    if (← atMark "\x7d") || (← atEnd) then return none
    else return some (← g (.statement false))

structure FunctionStyle where
  isAsync : Bool := false
  isGenerator : Bool := false

def FunctionStyle.inside (style : FunctionStyle) (context : Context) : Context :=
  { context with
    awaits := style.isAsync, yields := style.isGenerator, returns := true, allowsIn := true,
    outermost := false, decorating := false }

def functionBody (g : Grammar) (style : FunctionStyle) : Parser Node := do
  let start ← start
  expect "\x7b"
  let items ← within style.inside (statements g)
  expect "\x7d"
  return (← finish start .functionBody (markDirectives items)).inRole .body

/-- A function from its parameters on. Without a body it ends like a statement. -/
def functionRest (g : Grammar) (start : Nat) (kind : Kind) (style : FunctionStyle)
    (needsBody : Bool) : Parser Node := do
  let types ← typeParameters g
  let parameters ← within style.inside (parameters g)
  let result ← resultAnnotation g
  let front := types ++ parameters :: result
  if needsBody || !(← typed) || (← atMark "\x7b") then
    let body ← functionBody g style
    finish start kind (front ++ [body])
  else
    semicolon
    finish start kind front

def methodRest (g : Grammar) (style : FunctionStyle) (needsBody : Bool) : Parser Node := do
  let start ← start
  return (← functionRest g start (.function false none) style needsBody).inRole .value

def parameterCount (method : Node) : Nat × Bool :=
  match method.children.find? (·.kind = .parameters) with
  | some parameters =>
    (parameters.children.length, parameters.children.any (·.kind = .restParameter))
  | none => (0, false)

/-- A getter takes no parameter, and a setter one that is no rest. -/
def accessorRest (g : Grammar) (reads : Bool) (needsBody : Bool) : Parser Node := do
  let method ← methodRest g {} needsBody
  let (count, takesRest) := parameterCount method
  faultIf (if reads then count != 0 else count != 1 || takesRest)
  return method

def functionExpression (g : Grammar) (start : Nat) (isAsync : Bool) : Parser Node := do
  expectWord "function"
  let style : FunctionStyle := { isAsync, isGenerator := ← eat "*" }
  let name ← if ← within style.inside atName then some <$> anyWord else pure none
  functionRest g start (.function false name) style true

/-- A function declaration at the word `function`; only a default export may have no name. -/
def functionDeclaration (g : Grammar) (start : Nat) (isAsync nameless : Bool) : Parser Node := do
  expectWord "function"
  let style : FunctionStyle := { isAsync, isGenerator := ← eat "*" }
  let name ← if nameless && !(← atName) then pure none else some <$> name
  let declaration ← functionRest g start (.function true name) style false
  faultIf ((← read).ambient && (declaration.part? .body).isSome)
  return declaration

def atAsyncFunction : Parser Bool :=
  ahead do
    expectWord "async"
    return !(← afterBreak) && (← atWord "function")

end Parser

end ClientBoundary.Syntax
