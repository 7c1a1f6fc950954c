import ClientBoundary.Syntax.Class
import ClientBoundary.Syntax.Element
import ClientBoundary.Syntax.Target

/-! Expressions, from the parts that hold together by brackets up to assignments and commas. -/
namespace ClientBoundary.Syntax.Parser

def spread (g : Grammar) : Parser Node := do
  let start ← start
  expect "..."
  let item ← assignment g
  finish start .spread [item]

def spreadOrAssignment (g : Grammar) : Parser Node := do
  if ← atMark "..." then spread g else assignment g

def arguments (g : Grammar) : Parser (List Node) := do
  expect "("
  let (items, _) ← bracketed (commaList (atMark ")") (spreadOrAssignment g))
  expect ")"
  return items.map (·.inRole .argument)

/-- A template; only after a tag may escapes in it mean nothing. -/
def template (g : Grammar) (tagged : Bool) : Parser Node := do
  let start ← start
  let (items, wellFormed) ← templateRest (bracketed (g .expression)) (← lexeme)
  faultIf (!tagged && !wellFormed)
  finish start .template items

def arrayLiteral (g : Grammar) : Parser Node := do
  let start ← start
  expect "["
  let (items, trailingComma) ← bracketed <| commaList (atMark "]") do
    if ← atMark "," then return none else return some (← spreadOrAssignment g)
  expect "]"
  finish start (.array trailingComma) (items.filterMap id)

/-- A method, or a value with its key, or a name that is both. -/
def objectMember (g : Grammar) : Parser Node := do
  let start ← start
  if ← atMark "..." then spread g
  else if let some word ← accessorWord? then
    advance
    let key ← propertyKey g
    let method ← accessorRest g (word == "get") true
    finish start (.property true) [key, method]
  else
    let isAsync := (← modifier? ["async"]).isSome
    let isGenerator ← eat "*"
    let isName ← atName
    let here ← token
    let key ← propertyKey g
    if isAsync || isGenerator || (← atMarks ["(", "<"]) then
      let method ← methodRest g { isAsync, isGenerator } true
      finish start (.property true) [key, method]
    else if ← eat ":" then
      let value ← assignment g
      finish start (.property false) [key, value.inRole .value]
    else match isName, here.lexeme with
      | true, .word name _ =>
        let value : Node := { kind := .identifier name .value, span := here.span, role := .value }
        if ← eat "=" then
          let default ← assignment g
          finish start .shorthandDefault [key, value, default]
        else finish start (.property false) [key, value]
      | _, _ => failure

def objectLiteral (g : Grammar) : Parser Node := do
  let start ← start
  expect "\x7b"
  let (items, trailingComma) ← bracketed (commaList (atMark "\x7d") (objectMember g))
  expect "\x7d"
  finish start (.object trailingComma) items

def parenthesized (g : Grammar) : Parser Node := do
  let start ← start
  expect "("
  let inner ← bracketed (g .expression)
  expect ")"
  finish start .parenthesized [inner]

def classExpression (g : Grammar) : Parser Node := do
  let start ← start
  let decorators ← decorators g
  classRest g start false decorators

/-- `import.meta`, or a module loaded by call. -/
def importExpression (g : Grammar) : Parser Node := do
  let start ← start
  expectWord "import"
  if ← eat "." then
    if ← eatWord "meta" then return ← finish start .metaProperty
    require (← atWords ["source", "defer"])
    advance
  expect "("
  let module ← bracketed (assignment g)
  let options ← if (← eat ",") && !(← atMark ")") then
      let options ← bracketed (assignment g)
      let _ ← eat ","
      pure [options]
    else pure []
  expect ")"
  finish start .importCall (module :: options)

def identifier : Parser Node := do
  let start ← start
  let name ← name
  finish start (.identifier name .value)

/-- `super` is good only for an access or a call. -/
def superWord : Parser Node := do
  let node ← leaf .super
  faultIf !(← atMarks [".", "[", "("])
  return node

def access (start : Nat) (object : Node) : Parser Node := do
  let object := object.inRole .object
  match ← lexeme with
  | .privateName _ =>
    advance
    finish start .privateMember [object]
  | _ =>
    let property ← anyWord
    finish start (.staticMember property) [object]

def index (g : Grammar) (start : Nat) (object : Node) : Parser Node := do
  expect "["
  let key ← bracketed (g .expression)
  expect "]"
  finish start .computedMember [object.inRole .object, key]

/-- A call; type arguments that were read as part of the callee belong to it. -/
def call (g : Grammar) (start : Nat) (callee : Node) (types : List Node) : Parser Node := do
  let parts := match callee.kind, callee.children with
    | .instantiation, [expression, arguments] => [expression.inRole .callee, arguments]
    | _, _ => callee.inRole .callee :: types
  let arguments ← arguments g
  finish start .call (parts ++ arguments)

/-- One more access, call or wrapper around an expression, if one follows. The flag tells whether
a `?.` has been passed; `calls` whether calls and `?.` are read at all. -/
def accessStep (g : Grammar) (start : Nat) (calls : Bool) (expression : Node) (chained : Bool) :
    Parser (Option (Node × Bool)) := do
  let decorating := (← read).decorating
  match ← lexeme with
  | .mark "." =>
    advance
    return some (← access start expression, chained)
  | .mark "?." =>
    if !calls then return none
    advance
    match ← lexeme with
    | .mark "(" => return some (← call g start expression [], true)
    | .mark "[" => return some (← index g start expression, true)
    | .mark "<" =>
      match ← typeArgumentsInExpression? g with
      | some types => return some (← call g start expression [types], true)
      | none => failure
    | _ => return some (← access start expression, true)
  | .mark "[" =>
    if decorating then return none
    return some (← index g start expression, chained)
  | .template _ _ =>
    faultIf chained
    let quasi ← template g true
    let parts := match expression.kind, expression.children with
      | .instantiation, [tag, arguments] => [tag, arguments]
      | _, _ => [expression]
    return some (← finish start .taggedTemplate (parts ++ [quasi]), chained)
  | .mark "!" =>
    if !(← typed) || (← afterBreak) then return none
    advance
    return some (← finish start .nonNull [expression], chained)
  | .mark "(" =>
    if !calls then return none
    return some (← call g start expression [], chained)
  | .mark "<" | .mark "<<" =>
    match ← typeArgumentsInExpression? g with
    | some types => return some (← finish start .instantiation [expression, types], chained)
    | none => return none
  | _ => return none

def accesses (g : Grammar) (start : Nat) (calls : Bool) (expression : Node) :
    Parser (Node × Bool) :=
  iterate (expression, false) fun (expression, chained) =>
    accessStep g start calls expression chained

def newExpression (g : Grammar) : Parser Node := do
  let start ← start
  expectWord "new"
  if ← eat "." then
    expectWord "target"
    finish start .metaProperty
  else
    let calleeStart ← Parser.start
    let (callee, _) ← accesses g calleeStart false (← g .primary)
    faultIf (← atMark "?.")
    faultIf (callee.kind = .importCall)
    let parts := match callee.kind, callee.children with
      | .instantiation, [expression, types] => [expression.inRole .callee, types]
      | _, _ => [callee.inRole .callee]
    let arguments ← if ← atMark "(" then arguments g else pure []
    finish start .new (parts ++ arguments)

/-- An expression that no operator is needed for. -/
def primary (g : Grammar) : Parser Node := do
  let start ← start
  match ← lexeme with
  | .number => leaf .literal
  | .string value => leaf (.string value)
  | .template _ _ => template g false
  | .mark "(" => parenthesized g
  | .mark "[" => arrayLiteral g
  | .mark "\x7b" => objectLiteral g
  | .mark "/" | .mark "/=" =>
    readAgain Token.regex?
    leaf .literal
  | .mark "@" => classExpression g
  | .word "this" false => leaf .this
  | .word "null" false => leaf .null
  | .word "true" false | .word "false" false => leaf .literal
  | .word "function" false => functionExpression g start false
  | .word "class" false => classExpression g
  | .word "super" false => superWord
  | .word "import" false => importExpression g
  | .word "new" false => newExpression g
  | .word "async" false =>
    if ← atAsyncFunction then
      advance
      functionExpression g start true
    else identifier
  | _ => identifier

def leftHandSide (g : Grammar) : Parser Node := do
  let start ← start
  let (expression, chained) ← accesses g start true (← primary g)
  if chained then finish start .chain [expression] else return expression

def simpleTarget (expression : Node) : Parser Node :=
  match expression.simpleTarget? with
  | some target => return target.inRole .target
  | none => failure

/-- Whether `await` waits here and is no name. Outside of what may wait, it does so if an operand
follows on its line. -/
def atAwait : Parser Bool := do
  if !(← atWord "await") then return false
  else if (← read).awaits then return true
  else ahead do
    advance
    if ← afterBreak then return false
    match ← lexeme with
    | .word _ _ | .string _ | .number => return true
    | _ => return false

def awaitExpression (g : Grammar) : Parser Node := do
  let start ← start
  let context ← read
  faultIf (!context.awaits && !(context.outermost && context.dialect.loading == .undecided))
  advance
  let operand ← within (fun c => { c with awaits := true }) (g .unary)
  finish start .await [operand]

def unary (g : Grammar) : Parser Node := do
  let start ← start
  let operates := (← atMarks ["+", "-", "!", "~"]) || (← atWords ["delete", "void", "typeof"])
  if operates then
    advance
    let operand ← g .unary
    finish start .unary [operand]
  else if ← atMarks ["++", "--"] then
    advance
    let target ← simpleTarget (← g .unary)
    finish start .update [target]
  else if ← atMark "<" then
    if (← dialect).jsx then g (.element false)
    else
      require (← typed)
      advance
      let type ← g .type
      expect ">"
      let operand ← g .unary
      finish start .typeAssertion [type, operand]
  else if ← atAwait then awaitExpression g
  else
    let expression ← leftHandSide g
    if (← atMarks ["++", "--"]) && !(← afterBreak) then
      let target ← simpleTarget expression
      advance
      finish start .update [target]
    else return expression

def level : Lexeme → Option Nat
  | .mark "??" => some 1
  | .mark "||" => some 2
  | .mark "&&" => some 3
  | .mark "|" => some 4
  | .mark "^" => some 5
  | .mark "&" => some 6
  | .mark "==" | .mark "!=" | .mark "===" | .mark "!==" => some 7
  | .mark "<" | .mark ">" | .mark "<=" | .mark ">=" => some 8
  | .word "instanceof" false | .word "in" false => some 8
  | .word "as" false | .word "satisfies" false => some 8
  | .mark "<<" | .mark ">>" | .mark ">>>" => some 9
  | .mark "+" | .mark "-" => some 10
  | .mark "*" | .mark "/" | .mark "%" => some 11
  | .mark "**" => some 12
  | _ => none

/-- Reads a closing angle bracket with what follows it as one operator. -/
def joinAngle : Parser Unit := do
  if ← atMark ">" then
    let _ ← attempt (readAgain Token.angleMark?)

/-- Whether an operator in front of a base leaves open what is raised to a power. -/
def isUnclearBase (operand : Node) : Bool := operand.kind = .unary || operand.kind = .await

def isMixedWithCoalescing (operand : Node) : Bool := operand.kind = .logical false

/-- One more operator with its right side, if it binds tighter than a level. -/
def operatorStep (g : Grammar) (start above : Nat) (left : Node) : Parser (Option Node) := do
  joinAngle
  let operator ← lexeme
  match level operator with
  | none => return none
  | some tightness =>
    let rightmost := operator == .mark "**"
    if if rightmost then tightness < above else tightness ≤ above then return none
    else if operator == .word "in" false && !(← read).allowsIn then return none
    else if operator == .word "as" false || operator == .word "satisfies" false then
      if !(← typed) || (← afterBreak) then return none
      advance
      let type ← g .type
      let kind := if operator == .word "as" false then Kind.asType else Kind.satisfiesType
      return some (← finish start kind [left, type])
    else
      faultIf (rightmost && isUnclearBase left)
      advance
      let right ← g (.binary tightness)
      if operator == .mark "??" then
        faultIf (isMixedWithCoalescing left || isMixedWithCoalescing right)
        return some (← finish start (.logical true) [left, right.inRole .right])
      else if operator == .mark "||" || operator == .mark "&&" then
        return some (← finish start (.logical false) [left, right.inRole .right])
      else return some (← finish start .binary [left, right])

def binary (g : Grammar) (above : Nat) : Parser Node := do
  let start ← start
  let left ← match ← lexeme with
    | .privateName _ =>
      let name ← leaf .privateIn
      require ((← atWord "in") && (← read).allowsIn)
      pure name
    | _ => unary g
  iterate left (operatorStep g start above)

/-! Arrow functions. Whether parentheses hold parameters can show late, so that the head of an arrow
function may have to be tried. -/

inductive Certainty where
  | no
  | perhaps
  | yes
  deriving DecidableEq

/-- Judges an opening parenthesis by the tokens right after it. -/
def arrowAfterParenthesis : Parser Certainty := do
  let isTyped ← typed
  if ← eat ")" then
    if ← atMarks ["=>", "\x7b"] then return .yes
    else if isTyped && (← atMark ":") then return .perhaps
    else return .no
  else if ← atMarks ["[", "\x7b"] then return .perhaps
  else if ← eat "..." then
    match ← lexeme with
    | .word name _ => return if isReserved name then .perhaps else .yes
    | .string _ | .number => return .no
    | _ => return .perhaps
  else
    match ← lexeme with
    | .word name _ =>
      advance
      let third ← lexeme
      let modifies := ["public", "private", "protected", "readonly", "override", "static",
        "abstract", "declare", "accessor"].contains name
      match modifies, third with
      | true, .word next _ =>
        if !isReserved next then return if next == "as" then .no else .yes
      | _, _ => pure ()
      if isReserved name && name != "this" then return .no
      match third with
      | .mark ":" => return .yes
      | .mark "?" =>
        advance
        return if ← atMarks [":", ",", "=", ")"] then .yes else .no
      | .mark "," | .mark "=" | .mark ")" => return .perhaps
      | _ => return .no
    | _ => return .no

/-- Judges an opening angle bracket. Where elements are possible, only what no tag can be is an
arrow function. -/
def arrowAfterAngle : Parser Certainty := do
  if ← atWord "const" then advance
  if !(← atName) then return .no
  else if (← dialect).jsx then
    advance
    if ← eatWord "extends" then
      return if ← atMarks ["=", ">", "/"] then .no else .yes
    else return if ← atMarks [",", "="] then .yes else .no
  else return .perhaps

def arrowAhead : Parser Certainty := do
  let judged ← lookAhead do
    if ← eatWord "async" then require !(← afterBreak)
    if ← eat "(" then arrowAfterParenthesis
    else if ← eat "<" then arrowAfterAngle
    else return .no
  return judged.getD .no

structure ArrowHead where
  start : Nat
  isAsync : Bool
  front : List Node
  hasResultType : Bool

def arrowHead (g : Grammar) : Parser ArrowHead := do
  let start ← start
  let isAsync ← eatWord "async"
  let types ← typeParameters g
  let context ← read
  let parameters ← within (fun c => { c with
    awaits := isAsync || context.awaits, outermost := false }) (parameters g)
  let result ← resultAnnotation g
  require !(← afterBreak)
  expect "=>"
  return ⟨start, isAsync, types ++ parameters :: result, !result.isEmpty⟩

def arrowBody (g : Grammar) (resultType : Bool) (head : ArrowHead) : Parser Node := do
  if ← atMark "\x7b" then
    let body ← functionBody g { isAsync := head.isAsync }
    finish head.start (.arrow false) (head.front ++ [body])
  else
    let body ← within (fun c => { c with
      awaits := head.isAsync, yields := false, returns := true, outermost := false,
      decorating := false }) (g (.assignment resultType))
    finish head.start (.arrow true) (head.front ++ [body.inRole .body])

/-- An arrow function with parameters in parentheses, if one stands here. Between `?` and `:` its
result type has to leave a colon over. -/
def parenthesizedArrow? (g : Grammar) (resultType : Bool) : Parser (Option Node) := do
  match ← arrowAhead with
  | .no => return none
  | .yes => return some (← arrowBody g resultType (← arrowHead g))
  | .perhaps =>
    let before ← get
    match ← attempt (arrowHead g) with
    | none => return none
    | some head =>
      if head.hasResultType && !resultType then
        let arrow ← attempt do
          let arrow ← arrowBody g resultType head
          require (← atMark ":")
          return arrow
        if arrow.isNone then set before
        return arrow
      else return some (← arrowBody g resultType head)

/-- The parameters of an arrow function that has only a name before its arrow. -/
def singleParameter (name : Node) : Node :=
  let target : Node := match name.kind with
    | .identifier text _ => { kind := .binding text, span := name.span, role := .target }
    | _ => name
  let parameter : Node := { kind := .parameter, span := name.span, children := [target] }
  { kind := .parameters, span := name.span, children := [parameter] }

def asyncArrow? (g : Grammar) (resultType : Bool) : Parser (Option Node) := do
  let isArrow ← ahead do
    expectWord "async"
    require !(← afterBreak)
    let _ ← name
    return (← atMark "=>") && !(← afterBreak)
  if isArrow then
    let start ← start
    advance
    let name ← identifier
    expect "=>"
    let head : ArrowHead := ⟨start, true, [singleParameter name], false⟩
    return some (← arrowBody g resultType head)
  else return none

def yieldExpression (g : Grammar) : Parser Node := do
  let start ← start
  expectWord "yield"
  if ← afterBreak then finish start .yield
  else
    let delegates ← eat "*"
    let ends := (← atMarks [";", "\x7d", ")", "]", ":", ","]) || (← atEnd) || (← atWord "in")
    if ends && !delegates then finish start .yield
    else
      let operand ← assignment g
      finish start .yield [operand]

def assignmentMarks : List String :=
  ["=", "+=", "-=", "*=", "/=", "%=", "**=", "<<=", ">>=", ">>>=", "&=", "|=", "^=", "&&=", "||=",
   "??="]

def conditionalRest (g : Grammar) (start : Nat) (resultType : Bool) (test : Node) :
    Parser Node := do
  if ← eat "?" then
    let consequent ← within (fun c => { c with allowsIn := true }) (g (.assignment false))
    expect ":"
    let alternate ← g (.assignment resultType)
    finish start .conditional
      [test, consequent.inRole .consequent, alternate.inRole .alternate]
  else return test

def assignmentOrArrow (g : Grammar) (resultType : Bool) : Parser Node := do
  let start ← start
  if (← read).yields && (← atWord "yield") then yieldExpression g
  else if let some arrow ← parenthesizedArrow? g resultType then return arrow
  else if let some arrow ← asyncArrow? g resultType then return arrow
  else
    let left ← binary g 0
    if (← atMark "=>") && left.identifier?.isSome then
      require !(← afterBreak)
      advance
      let head : ArrowHead := ⟨start, false, [singleParameter left], false⟩
      arrowBody g resultType head
    else if ← atMarks assignmentMarks then
      let plain ← atMark "="
      match if plain then left.target? else left.simpleTarget? with
      | none => failure
      | some target =>
        advance
        let right ← g (.assignment resultType)
        finish start (.assignment plain) [target.inRole .target, right.inRole .right]
    else conditionalRest g start resultType left

def expression (g : Grammar) : Parser Node := do
  let start ← start
  let first ← assignment g
  if ← atMark "," then
    let rest ← many do
      if ← eat "," then return some (← assignment g) else return none
    finish start .sequence (first :: rest)
  else return first

end ClientBoundary.Syntax.Parser
