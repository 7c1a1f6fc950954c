import ClientBoundary.Syntax.Parser

/-! Binding patterns and property names, and the places of the grammar that refer back to each
other. A rule of the grammar is written for any reader of these places, so that no rule has to be
recursive by itself. -/
namespace ClientBoundary.Syntax

/-- The places of the grammar that rules of any depth come back to. -/
inductive Goal where
  | type
  /-- An expression without a comma; an arrow function in it may state its result type or not. -/
  | assignment (resultType : Bool)
  | expression
  /-- Operators that bind tighter than a level. -/
  | binary (above : Nat)
  | unary
  | leftHandSide
  /-- An expression without operators, accesses or calls around it. -/
  | primary
  | pattern
  /-- A statement; `alone` if it is the whole body of another one. -/
  | statement (alone : Bool)
  /-- An element; `nested` if text between tags follows it. -/
  | element (nested : Bool)

abbrev Grammar := Goal → Parser Node

namespace Parser

/-- Inside of brackets of any kind, where `in` is an operator again. -/
def bracketed {α : Type} (parser : Parser α) : Parser α :=
  within (fun c => { c with allowsIn := true, decorating := false }) parser

def assignment (g : Grammar) : Parser Node := g (.assignment true)

/-- A computed key, or a name, string or number that stands for itself. -/
def propertyKey (g : Grammar) : Parser Node := do
  match ← lexeme with
  | .mark "[" =>
    advance
    let key ← bracketed (assignment g)
    expect "]"
    return key.inRole .key
  | .word name _ => return (← leaf (.propertyName name)).inRole .key
  | .string value => return (← leaf (.propertyName value)).inRole .key
  | .number => return (← leaf (.propertyName "")).inRole .key
  | _ => failure

def bindingName : Parser Node := do
  let start ← start
  let name ← name
  finish start (.binding name)

/-- A pattern, with the value it takes where there is none. -/
def patternWithDefault (g : Grammar) : Parser Node := do
  let start ← start
  let target ← g .pattern
  if ← eat "=" then
    let value ← bracketed (assignment g)
    finish start .patternDefault [target, value]
  else return target

/-- `...` and the target that takes what is left. -/
def patternRest (target : Parser Node) : Parser Node := do
  let start ← start
  expect "..."
  let target ← target
  let rest ← finish start .patternRest [target]
  -- the rest comes last, and no comma follows it
  faultIf (← atMark ",")
  return rest

def arrayPattern (g : Grammar) : Parser Node := do
  let start ← start
  expect "["
  let (items, _) ← commaList (atMark "]") do
    if ← atMark "," then return none
    else if ← atMark "..." then return some (← patternRest (g .pattern))
    else return some (← patternWithDefault g)
  expect "]"
  finish start .arrayPattern (items.filterMap id)

def patternProperty (g : Grammar) : Parser Node := do
  let start ← start
  let here ← token
  let isName ← atName
  let key ← propertyKey g
  if ← eat ":" then
    let value ← patternWithDefault g
    finish start .patternProperty [key, value.inRole .value]
  else match isName, here.lexeme with
    | true, .word name _ =>
      let target : Node := { kind := .binding name, span := here.span, role := .value }
      if ← eat "=" then
        let value ← bracketed (assignment g)
        let withDefault ← finish start .patternDefault [target, value]
        finish start .patternProperty [key, withDefault.inRole .value]
      else finish start .patternProperty [key, target]
    | _, _ => failure

def objectPattern (g : Grammar) : Parser Node := do
  let start ← start
  expect "\x7b"
  let (items, _) ← commaList (atMark "\x7d") do
    if ← atMark "..." then patternRest bindingName else patternProperty g
  expect "\x7d"
  finish start .objectPattern items

def pattern (g : Grammar) : Parser Node := do
  match ← lexeme with
  | .mark "[" => arrayPattern g
  | .mark "\x7b" => objectPattern g
  | _ => bindingName

end Parser

end ClientBoundary.Syntax
