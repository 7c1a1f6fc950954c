import ClientBoundary.Syntax.Signature

/-! Types. They are read only to find where they end; what is inside of them is not kept. The
members of interfaces are kept, because their computed keys are code. -/
namespace ClientBoundary.Syntax.Parser

def plainType (start : Nat) : Parser Node := finish start .type

/-- A type inside of brackets, where conditions are allowed again. -/
def innerType (g : Grammar) : Parser Node :=
  within (fun c => { c with allowsConditionalType := true }) (g .type)

/-- Splits a longer mark that starts with an angle bracket. -/
def splitAngle : Parser Unit := do
  if ← atMarks ["<<", "<=", "<<="] then
    readAgain fun text => some (.mark "<", 1, text.drop 1)

def typeArgumentsTo (close : Parser Unit) (g : Grammar) : Parser Node := do
  let start ← start
  splitAngle
  expect "<"
  let (items, _) ← commaList (atMark ">") (innerType g)
  require !items.isEmpty
  close
  finish start .typeArguments

def typeArguments : Grammar → Parser Node := typeArgumentsTo (expect ">")

/-- Type arguments on the line of what they belong to. -/
def typeArgumentsHere (g : Grammar) : Parser (List Node) := do
  if (← atMarks ["<", "<<"]) && !(← afterBreak) then return [← typeArguments g] else return []

def templateRest (substitution : Parser Node) (head : Lexeme) :
    Parser (List Node × Bool) := do
  let (items, _, wellFormed) ← iterate (([] : List Node), head, true) fun (items, piece, good) => do
    match piece with
    | .template false wellFormed =>
      advance
      let item ← substitution
      require (← atMark "\x7d")
      readAgain Token.templateRest?
      return some (item :: items, ← lexeme, good && wellFormed)
    | _ => return none
  match ← lexeme with
  | .template true last =>
    advance
    return (items.reverse, wellFormed && last)
  | _ => failure

def dottedNames : Parser Unit :=
  iterate () fun _ => do
    if ← eat "." then
      match ← lexeme with
      | .privateName _ => advance
      | _ => let _ ← anyWord
      return some ()
    else return none

/-- `import("module").Name`. -/
def importType (g : Grammar) : Parser Unit := do
  expectWord "import"
  expect "("
  let _ ← innerType g
  if ← eat "," then
    if ← atMark "\x7b" then let _ ← g (.assignment true)
    let _ ← eat ","
  expect ")"
  dottedNames
  let _ ← typeArgumentsHere g

def typeQuery (g : Grammar) : Parser Unit := do
  expectWord "typeof"
  if ← atWord "import" then importType g
  else
    let _ ← anyWord
    dottedNames
    let _ ← typeArgumentsHere g

def memberEnd : Parser Unit := do
  if ← eat "," then pure ()
  else semicolon

def callSignature (g : Grammar) (start : Nat) (key : List Node) : Parser Node := do
  let types ← typeParameters g
  let parameters ← parameters g
  let result ← resultAnnotation g
  let signature ← finish start .signature (key ++ types ++ parameters :: result)
  memberEnd
  return signature

/-- `[name: Key]: Value` in a type or class. -/
def atIndexSignature : Parser Bool :=
  ahead do
    expect "["
    let _ ← modifiers parameterModifiers
    let _ ← name
    atMark ":"

def indexSignature (g : Grammar) (start : Nat) : Parser Node := do
  expect "["
  let _ ← name
  let _ ← typeAnnotation g
  expect "]"
  let _ ← typeAnnotation g
  let signature ← finish start .indexSignature
  memberEnd
  return signature

def typeMember (g : Grammar) : Parser Node := do
  let start ← start
  let atSignature : Parser Bool := atMarks ["(", "<"]
  if ← atSignature then callSignature g start []
  else if ← ahead (do expectWord "new"; atSignature) then
    advance
    callSignature g start []
  else
    let _ ← modifiers ["readonly", "public", "private", "protected", "static", "declare", "abstract"]
    if ← atIndexSignature then indexSignature g start
    else
      let isAccessor ← ahead do
        require (← atWords ["get", "set"])
        advance
        let followed ← followsModifier
        return followed && !(← atMarks ["\x7b", "*", "..."])
      if isAccessor then
        advance
        let key ← propertyKey g
        callSignature g start [key]
      else
        let key ← propertyKey g
        let _ ← eat "?"
        if ← atSignature then callSignature g start [key]
        else
          let type ← typeAnnotation g
          let member ← finish start .propertySignature (key :: type)
          memberEnd
          return member

def typeMembers (g : Grammar) : Parser (List Node) := do
  expect "\x7b"
  let members ← many do
    if ← atMark "\x7d" then return none else return some (← typeMember g)
  expect "\x7d"
  return members

/-- `{ [Name in Type]: Type }`, with marks on how the members change. -/
def atMappedType : Parser Bool :=
  ahead do
    expect "\x7b"
    if ← atMarks ["+", "-"] then
      advance
      atWord "readonly"
    else
      let _ ← eatWord "readonly"
      expect "["
      let _ ← name
      atWord "in"

def mappedType (g : Grammar) : Parser Unit := do
  expect "\x7b"
  if ← atMarks ["+", "-"] then advance
  let _ ← eatWord "readonly"
  expect "["
  let _ ← name
  expectWord "in"
  let _ ← innerType g
  if ← eatWord "as" then let _ ← innerType g
  expect "]"
  if ← atMarks ["+", "-"] then
    advance
    expect "?"
  else let _ ← eat "?"
  let _ ← typeAnnotation g
  let _ ← if ← atMark "\x7d" then pure () else semicolon
  expect "\x7d"

def tupleElement (g : Grammar) : Parser Unit := do
  let _ ← eat "..."
  let named ← ahead do
    let _ ← anyWord
    let _ ← eat "?"
    atMark ":"
  if named then
    let _ ← anyWord
    let _ ← eat "?"
    expect ":"
    let _ ← eat "..."
  let _ ← innerType g
  let _ ← eat "?"

def skipBrackets : Parser Unit := do
  let _ ← iterate (0 : Nat) fun depth => do
    require !(← atEnd)
    let opens ← atMarks ["[", "\x7b", "("]
    let closes ← atMarks ["]", "\x7d", ")"]
    advance
    let depth := if opens then depth + 1 else if closes then depth - 1 else depth
    return if depth = 0 then none else some depth

def atFunctionType : Parser Bool := do
  if ← atMark "<" then return true
  else ahead do
    expect "("
    if ← atMarks [")", "..."] then return true
    let _ ← modifiers parameterModifiers
    if ← atMarks ["[", "\x7b"] then skipBrackets
    else if (← atWord "this") || (← atName) then advance
    if ← atMarks [":", ",", "?", "="] then return true
    if ← eat ")" then atMark "=>" else return false

def functionType (g : Grammar) : Parser Unit := do
  let _ ← typeParameters g
  let _ ← parameters g
  expect "=>"
  let _ ← resultType g

/-- Types that take no arguments; in front of a dot these words are ordinary names. -/
def simpleTypes : List String :=
  ["any", "unknown", "never", "object", "string", "number", "boolean", "bigint", "symbol",
    "undefined"]

def reservedTypes : List String := ["void", "null", "this", "true", "false"]

def primaryType (g : Grammar) : Parser Unit := do
  match ← lexeme with
  | .string _ | .number => advance
  | .template _ _ =>
    let head ← lexeme
    let _ ← templateRest (innerType g) head
  | .mark "-" =>
    advance
    match ← lexeme with
    | .number => advance
    | _ => failure
  | .mark "(" =>
    advance
    let _ ← innerType g
    expect ")"
  | .mark "[" =>
    advance
    let _ ← commaList (atMark "]") (tupleElement g)
    expect "]"
  | .mark "\x7b" => if ← atMappedType then mappedType g else let _ ← typeMembers g
  | .word "typeof" false => typeQuery g
  | .word "import" false => importType g
  | .word name _ =>
    require (!isReserved name || reservedTypes.contains name || name == "const")
    advance
    let isSimple := reservedTypes.contains name || (simpleTypes.contains name && !(← atMark "."))
    if !isSimple then
      dottedNames
      let _ ← typeArgumentsHere g
  | _ => failure

def postfixType (g : Grammar) : Parser Unit := do
  primaryType g
  iterate () fun _ => do
    if (← atMark "[") && !(← afterBreak) then
      advance
      if ← eat "]" then return some ()
      let _ ← innerType g
      expect "]"
      return some ()
    else return none

/-- `infer Name extends Type`; with a `?` after it the `extends` belongs to a condition around. -/
def inferredType (g : Grammar) : Parser Unit := do
  expectWord "infer"
  let _ ← name
  let allowsConditional := (← read).allowsConditionalType
  let bounded ← ahead do
    expectWord "extends"
    let _ ← within (fun c => { c with allowsConditionalType := false }) (g .type)
    return !allowsConditional || !(← atMark "?")
  if bounded then
    advance
    let _ ← within (fun c => { c with allowsConditionalType := false }) (g .type)

def operatorType (g : Grammar) : Parser Unit := do
  let _ ← many do
    if ← atWords ["keyof", "unique", "readonly"] then advance; return some () else return none
  if ← atWord "infer" then inferredType g else postfixType g

/-- Types with a mark between them, which may also stand in front of the first. -/
def joinedTypes (mark : String) (part : Parser Unit) : Parser Unit := do
  let _ ← eat mark
  part
  iterate () fun _ => do
    if ← eat mark then
      part
      return some ()
    else return none

def unionType (g : Grammar) : Parser Unit := joinedTypes "|" (joinedTypes "&" (operatorType g))

def conditionalType (g : Grammar) : Parser Unit := do
  unionType g
  if (← read).allowsConditionalType && (← atWord "extends") && !(← afterBreak) then
    advance
    let _ ← within (fun c => { c with allowsConditionalType := false }) (g .type)
    expect "?"
    let _ ← innerType g
    expect ":"
    let _ ← innerType g

/-- A type. Function types stand alone: in a union they are put in parentheses. -/
def type (g : Grammar) : Parser Node := do
  let start ← start
  let constructs ← ahead do
    let _ ← eatWord "abstract"
    atWord "new"
  if constructs then
    let _ ← eatWord "abstract"
    advance
    functionType g
  else if ← atFunctionType then functionType g
  else conditionalType g
  plainType start

/-- Type arguments in an expression: good only if what follows cannot go on a comparison. -/
def typeArgumentsInExpression? (g : Grammar) : Parser (Option Node) := do
  if (← typed) && (← atMarks ["<", "<<"]) then
    attempt do
      let arguments ← typeArgumentsTo close g
      let ends ← endsTypeArguments
      require ends
      return arguments
  else return none
where
  /-- A bracket that is part of a longer operator does not close. -/
  close : Parser Unit := do
    require !(← ahead (do readAgain Token.angleMark?; return true))
    expect ">"
  startingMarks : List String := ["[", "\x7b", "!", "~", "++", "--", "@", "...", "/="]
  startingWords : List String :=
    ["class", "delete", "false", "function", "import", "new", "null", "super", "this", "true",
      "typeof", "void"]
  /-- Whether an expression cannot start here, or a call or template follows. -/
  endsTypeArguments : Parser Bool := do
    match ← lexeme with
    | .template _ _ => return true
    | .mark "(" => return true
    | .mark text =>
      if ["<", ">", "+", "-"].contains text then return false
      else return (← afterBreak) || !startingMarks.contains text
    | .word name false =>
      return (← afterBreak) || ["in", "instanceof", "as", "satisfies"].contains name ||
        (isReserved name && !startingWords.contains name)
    | .endOfText => return true
    | _ => afterBreak

end ClientBoundary.Syntax.Parser
