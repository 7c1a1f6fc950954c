import ClientBoundary.Syntax.Expression

/-! Statements, and the declarations that are common to all dialects. -/
namespace ClientBoundary.Syntax.Parser

def block (g : Grammar) : Parser Node := do
  let start ← start
  expect "\x7b"
  let items ← statements g
  expect "\x7d"
  finish start .block items

def condition (g : Grammar) : Parser Node := do
  expect "("
  let test ← bracketed (g .expression)
  expect ")"
  return test

def bodyStatement (g : Grammar) : Parser Node := return (← g (.statement true)).inRole .body

def ifStatement (g : Grammar) : Parser Node := do
  let start ← start
  expectWord "if"
  let test ← condition g
  let consequent ← g (.statement true)
  let alternate ← if ← eatWord "else" then
      pure [(← g (.statement true)).inRole .alternate]
    else pure []
  finish start .ifStatement (test :: consequent.inRole .consequent :: alternate)

def whileStatement (g : Grammar) : Parser Node := do
  let start ← start
  expectWord "while"
  let test ← condition g
  let body ← bodyStatement g
  finish start .whileStatement [test, body]

/-- After the condition a semicolon may be left out even on one line. -/
def doWhileStatement (g : Grammar) : Parser Node := do
  let start ← start
  expectWord "do"
  let body ← bodyStatement g
  expectWord "while"
  let test ← condition g
  let _ ← eat ";"
  finish start .doWhileStatement [body, test]

/-! Variables. -/

def isNamed (target : Node) : Bool :=
  match target.kind with
  | .binding _ => true
  | _ => false

/-- Values that a constant without implementation may have. -/
def isAmbientValue (value : Node) : Bool :=
  match value.kind with
  | .string _ | .literal | .staticMember _ | .computedMember => true
  | .template => value.children.isEmpty
  | .unary => value.children.all (·.kind = .literal)
  | _ => false

def declarator (g : Grammar) (keyword : VariableKeyword) : Parser Node := do
  let start ← start
  let target ← g .pattern
  let isTyped ← typed
  if isTyped && isNamed target && (← atMark "!") && !(← afterBreak) then advance
  let type ← typeAnnotation g
  let init ← if ← eat "=" then pure [(← assignment g).inRole .init] else pure []
  faultIf ((← read).ambient && init.any fun value =>
    !(keyword = .constWord && type.isEmpty && isAmbientValue value))
  finish start .declarator (target.inRole .target :: type ++ init)

/-- Outside of loops over values, constants and patterns need something to start from. -/
def needsValue (keyword : VariableKeyword) (declarator : Node) : Bool :=
  (declarator.part? .init).isNone &&
    (keyword = .constWord || keyword = .usingWord || !((declarator.part? .target).any isNamed))

def declarators (g : Grammar) (keyword : VariableKeyword) : Parser (List Node) := do
  let first ← declarator g keyword
  let rest ← many do
    if ← eat "," then return some (← declarator g keyword) else return none
  return first :: rest

def variablesRest (g : Grammar) (start : Nat) (keyword : VariableKeyword) : Parser Node := do
  let items ← declarators g keyword
  faultIf (!(← read).ambient && items.any (needsValue keyword))
  semicolon
  finish start (.variables keyword) items

def atUsing : Parser Bool :=
  ahead do
    if ← eatWord "await" then require !(← afterBreak)
    expectWord "using"
    return !(← afterBreak) && (← atName) && !(← atWord "of")

def variableKeyword? : Parser (Option VariableKeyword) := do
  if ← eatWord "var" then return some .varWord
  else if ← eatWord "const" then return some .constWord
  else if ← atWord "let" then
    let declares ← ahead do
      advance
      return (← atName) || (← atMarks ["[", "\x7b"])
    if declares then advance; return some .letWord else return none
  else if ← atUsing then
    let _ ← eatWord "await"
    advance
    return some .usingWord
  else return none

/-! Loops over values. -/

def forRest (g : Grammar) (start : Nat) (init : List Node) : Parser Node := do
  expect ";"
  let test ← if ← atMark ";" then pure [] else pure [← bracketed (g .expression)]
  expect ";"
  let update ← if ← atMark ")" then pure [] else pure [← bracketed (g .expression)]
  expect ")"
  let body ← bodyStatement g
  finish start .forStatement (init ++ test ++ update ++ [body])

def forInRest (g : Grammar) (start : Nat) (left : Node) : Parser Node := do
  expectWord "in"
  let right ← bracketed (g .expression)
  expect ")"
  let body ← bodyStatement g
  finish start .forInStatement [left, right, body]

def forOfRest (g : Grammar) (start : Nat) (left : Node) : Parser Node := do
  expectWord "of"
  let right ← bracketed (assignment g)
  expect ")"
  let body ← bodyStatement g
  finish start .forOfStatement [left, right, body]

/-- A loop, decided by what comes after its first part. -/
def forDecided (g : Grammar) (start : Nat) (waits : Bool) (first : Node) (target : Option Node)
    (complete : Bool) : Parser Node := do
  if ← atWord "of" then
    match target with
    | some left => forOfRest g start left
    | none => failure
  else if ← atWord "in" then
    faultIf waits
    match target with
    | some left => forInRest g start left
    | none => failure
  else
    faultIf (waits || !complete)
    forRest g start [first]

def forStatement (g : Grammar) : Parser Node := do
  let start ← start
  expectWord "for"
  let waits ← eatWord "await"
  let context ← read
  faultIf (waits && !context.awaits &&
    !(context.outermost && context.dialect.loading == .undecided))
  expect "("
  if ← atMark ";" then
    faultIf waits
    forRest g start []
  else
    let firstStart ← Parser.start
    let outside := fun (c : Context) => { c with allowsIn := false }
    match ← variableKeyword? with
    | some keyword =>
      let items ← within outside (declarators g keyword)
      let left ← finish firstStart (.variables keyword) items
      forDecided g start waits left (some left) (!items.any (needsValue keyword))
    | none =>
      let bare ← ahead do
        expectWord "async"
        atWord "of"
      let left ← within outside (g .expression)
      faultIf (bare && !waits && left.identifier? = some "async" && (← atWord "of"))
      forDecided g start waits left left.target? true

/-! Jumps and choices. -/

def labelHere : Parser Unit := do
  if !(← canEndStatement) then let _ ← name

def breakStatement : Parser Node := do
  let start ← start
  let kind := if ← atWord "break" then Kind.breakStatement else Kind.continueStatement
  advance
  labelHere
  semicolon
  finish start kind

def returnStatement (g : Grammar) : Parser Node := do
  let start ← start
  faultIf !(← read).returns
  expectWord "return"
  let argument ← if ← canEndStatement then pure []
    else pure [(← bracketed (g .expression)).inRole .argument]
  semicolon
  finish start .returnStatement argument

def throwStatement (g : Grammar) : Parser Node := do
  let start ← start
  expectWord "throw"
  require !(← afterBreak)
  let argument ← bracketed (g .expression)
  semicolon
  finish start .throwStatement [argument]

def withStatement (g : Grammar) : Parser Node := do
  let start ← start
  expectWord "with"
  let object ← condition g
  let body ← bodyStatement g
  finish start .withStatement [object.inRole .head, body]

def switchCase (g : Grammar) : Parser Node := do
  let start ← start
  let test ← if ← eatWord "default" then pure []
    else
      expectWord "case"
      pure [← bracketed (g .expression)]
  expect ":"
  let items ← many do
    if (← atMark "\x7d") || (← atWords ["case", "default"]) then return none
    else return some (← g (.statement false))
  finish start .switchCase (test ++ items)

def switchStatement (g : Grammar) : Parser Node := do
  let start ← start
  expectWord "switch"
  let subject ← condition g
  expect "\x7b"
  let cases ← many do
    if ← atMark "\x7d" then return none else return some (← switchCase g)
  expect "\x7d"
  finish start .switchStatement (subject.inRole .head :: cases)

def catchClause (g : Grammar) : Parser Node := do
  let start ← start
  expectWord "catch"
  let parameter ← if ← eat "(" then
      let parameterStart ← Parser.start
      let target ← g .pattern
      let type ← typeAnnotation g
      let parameter ← finish parameterStart .catchParameter (target.inRole .target :: type)
      expect ")"
      pure [parameter]
    else pure []
  let body ← block g
  finish start .catchClause (parameter ++ [body])

def tryStatement (g : Grammar) : Parser Node := do
  let start ← start
  expectWord "try"
  let body ← block g
  let handler ← if ← atWord "catch" then pure [← catchClause g] else pure []
  let finalizer ← if ← eatWord "finally" then pure [← block g] else pure []
  require !(handler.isEmpty && finalizer.isEmpty)
  finish start .tryStatement (body :: handler ++ finalizer)

/-! Expressions as statements. -/

def expressionStatement (start : Nat) (expression : Node) : Parser Node := do
  semicolon
  finish start .expressionStatement [expression]

def expressionOrLabel (g : Grammar) : Parser Node := do
  let start ← start
  let expression ← bracketed (g .expression)
  if ← eatIf expression.identifier?.isSome ":" then
    let body ← bodyStatement g
    finish start .labeledStatement [body]
  else expressionStatement start expression

/-- `let` declares unless it can only be a name. As the whole body of a statement it does not
declare. -/
def letStatement (g : Grammar) (alone : Bool) : Parser Node := do
  let start ← start
  let next ← lookAhead do
    advance
    return ((← lexeme), (← afterBreak))
  let isOperator := match next with
    | some (.mark text, _) => assignmentMarks.contains text || (level (.mark text)).isSome ||
        [".", "(", "?", ":", ",", ";", "\x7d", ")", "=>", "?.", "++", "--"].contains text
    | some (.word "in" false, _) | some (.word "instanceof" false, _) => true
    | some (.endOfText, _) => true
    | some (.template _ _, _) => true
    | _ => false
  let opensPattern := match next with
    | some (.mark "[", _) => true
    | _ => false
  if isOperator then expressionOrLabel g
  else if alone && !opensPattern then
    let name ← identifier
    expressionStatement start name
  else
    advance
    faultIf alone
    variablesRest g start .letWord

def functionStatement (g : Grammar) (alone : Bool) : Parser Node := do
  let start ← start
  let isAsync ← eatWord "async"
  let isGenerator ← ahead (do expectWord "function"; atMark "*")
  faultIf (alone && (isAsync || isGenerator))
  functionDeclaration g start isAsync false

def classStatement (g : Grammar) (alone : Bool) : Parser Node := do
  let start ← start
  faultIf alone
  let node ← classRest g start true []
  match node.kind with
  | .classNode _ none => failure
  | _ => return node

end ClientBoundary.Syntax.Parser
