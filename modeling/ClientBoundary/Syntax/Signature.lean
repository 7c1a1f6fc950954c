import ClientBoundary.Syntax.Pattern

/-! What stands in front of the body of a function: type parameters, parameters and the type of
the result. Decorators and modifiers, which can stand before parameters and members, are here
too. -/
namespace ClientBoundary.Syntax.Parser

def typeAnnotation (g : Grammar) : Parser (List Node) := do
  if ← eatIf (← typed) ":" then return [← g .type] else return []

def decorators (g : Grammar) : Parser (List Node) :=
  many do
    let start ← start
    if ← eat "@" then
      let expression ← within (fun c => { c with decorating := true }) (g .leftHandSide)
      return some (← finish start .decorator [expression])
    else return none

/-- Whether the current token can stand after a modifier. -/
def followsModifier : Parser Bool := do
  match ← lexeme with
  | .word _ _ | .string _ | .number | .privateName _ => return true
  | .mark text => return ["[", "\x7b", "*", "..."].contains text
  | _ => return false

/-- Passes one of some modifiers, if it is one and not a name. -/
def modifier? (names : List String) : Parser (Option String) := do
  match ← lexeme with
  | .word name false =>
    let modifies ← ahead do
      advance
      let sameLine := !(← afterBreak)
      return (sameLine || name == "static") && (← followsModifier)
    if names.contains name && modifies then advance; return some name else return none
  | _ => return none

def modifiers (names : List String) : Parser (List String) := many (modifier? names)

def parameterModifiers : List String := ["public", "private", "protected", "readonly", "override"]

def parameter (g : Grammar) : Parser Node := do
  let start ← start
  let decorators ← decorators g
  let isTyped ← typed
  let _ ← if isTyped then modifiers parameterModifiers else pure []
  if ← eat "..." then
    let target ← g .pattern
    let type ← typeAnnotation g
    let rest ← finish start .restParameter (decorators ++ target.inRole .target :: type)
    faultIf (← atMark ",")
    return rest
  else if ← eatWordIf isTyped "this" then
    let type ← typeAnnotation g
    finish start .parameter type
  else
    let target ← g .pattern
    if isTyped then let _ ← eat "?"
    let type ← typeAnnotation g
    let init ← if ← eat "=" then pure [(← assignment g).inRole .init] else pure []
    finish start .parameter (decorators ++ target.inRole .target :: type ++ init)

def parameters (g : Grammar) : Parser Node := do
  let start ← start
  expect "("
  let (items, _) ← bracketed (commaList (atMark ")") (parameter g))
  expect ")"
  finish start .parameters items

def typeParameter (g : Grammar) : Parser Node := do
  let start ← start
  let _ ← modifiers ["const", "in", "out"]
  let name ← name
  let bound ← if ← eatWord "extends" then pure [← g .type] else pure []
  let default ← if ← eat "=" then pure [← g .type] else pure []
  finish start (.typeParameter name) (bound ++ default)

def typeParameters (g : Grammar) : Parser (List Node) := do
  if (← typed) && (← atMark "<") then
    let start ← start
    advance
    let (items, _) ← commaList (atMark ">") (typeParameter g)
    require !items.isEmpty
    expect ">"
    return [← finish start .typeParameters items]
  else return []

/-- The type of a result, which can also say what a parameter is found to be. -/
def resultType (g : Grammar) : Parser Node := do
  let start ← start
  let atSubject : Parser Bool := do return (← atName) || (← atWord "this")
  let asserts ← ahead do
    expectWord "asserts"
    return !(← afterBreak) && (← atSubject) && !(← atWord "is")
  if asserts then
    advance
    advance
    if ← eatWord "is" then let _ ← g .type
    finish start .type
  else
    let narrows ← ahead do
      require (← atSubject)
      advance
      return (← atWord "is") && !(← afterBreak)
    if narrows then
      advance
      advance
      let _ ← g .type
      finish start .type
    else g .type

def resultAnnotation (g : Grammar) : Parser (List Node) := do
  if ← eatIf (← typed) ":" then return [← resultType g] else return []

end ClientBoundary.Syntax.Parser
