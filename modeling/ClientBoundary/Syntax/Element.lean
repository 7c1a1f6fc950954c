import ClientBoundary.Syntax.TypeSyntax

/-! Elements: tags with attributes, and between them text, code and further elements. -/
namespace ClientBoundary.Syntax.Parser

/-- Ends a tag. What follows is text if an element around goes on, and code otherwise. -/
def tagEnd (nested : Bool) : Parser Unit := do
  require (← atMark ">")
  if nested then advanceBy false Token.jsxChild? else advance

def tagWord : Parser String := do
  match ← lexeme with
  | .word _ false =>
    readAgain Token.jsxName?
    anyWord
  | _ => failure

/-- Whether a tag stands for a variable: plain lower case names are built in. -/
def isVariableTag (name : String) : Bool :=
  !name.toList.contains '-' && !(name.toList.head?.any fun c => 'a' ≤ c && c ≤ 'z')

/-- The name of a tag, and its text to match the closing tag by. -/
def tagName : Parser (Node × String) := do
  let start ← start
  let first ← tagWord
  let plain ← finish start (.jsxName first)
  let reference : Node := if first == "this" then { plain with kind := .this }
    else { plain with kind := .identifier first .value }
  if ← eat ":" then
    let second ← tagWord
    let name := first ++ ":" ++ second
    return (← finish start (.jsxName name), name)
  else if ← atMark "." then
    require !(first.toList.contains '-')
    let (node, text) ← iterate (reference, first) fun (node, text) => do
      if ← eat "." then
        let word ← tagWord
        require !(word.toList.contains '-')
        return some (← finish start .jsxMemberName [node], text ++ "." ++ word)
      else return none
    return (node, text)
  else if first == "this" || isVariableTag first then return (reference, first)
  else return (plain, first)

def attributeName : Parser Node := do
  let start ← start
  let (_, text) ← readText do
    let _ ← tagWord
    if ← eat ":" then let _ ← tagWord
  return (← finish start (.jsxName text)).inRole .key

/-- Code in braces; a comma is no operator in it. -/
def containerExpression (g : Grammar) : Parser Node := do
  let expression ← bracketed (g .expression)
  faultIf (expression.kind = .sequence)
  return expression.inRole .value

def attributeValue (g : Grammar) : Parser Node := do
  let start ← start
  match ← lexeme with
  | .string value => leaf (.string value)
  | .mark "\x7b" =>
    advance
    let expression ← containerExpression g
    expect "\x7d"
    finish start .jsxContainer [expression]
  | .mark "<" => g (.element false)
  | _ => failure

/-- Moves past the equals sign to the value, which may be a string with line breaks in it. -/
def advanceToValue : Parser Unit :=
  advanceBy true fun text =>
    match text with
    | '\x22' :: _ | '\x27' :: _ => Token.jsxString? text
    | _ => Token.code? text

def tagAttribute (g : Grammar) : Parser Node := do
  let start ← start
  if ← eat "\x7b" then
    expect "..."
    let expression ← bracketed (assignment g)
    expect "\x7d"
    finish start .jsxSpreadAttribute [expression]
  else
    let name ← attributeName
    if ← atMark "=" then
      advanceToValue
      let value ← attributeValue g
      finish start .jsxAttribute [name, value.inRole .value]
    else finish start .jsxAttribute [name]

def childContainer (g : Grammar) : Parser Node := do
  let start ← start
  expect "\x7b"
  let (kind, parts) ← if ← atMark "\x7d" then pure (Kind.jsxContainer, [])
    else if ← eat "..." then
      pure (Kind.jsxSpreadChild, [← bracketed (assignment g)])
    else pure (Kind.jsxContainer, [← containerExpression g])
  require (← atMark "\x7d")
  advanceBy false Token.jsxChild?
  finish start kind parts

def elementChildren (g : Grammar) : Parser (List Node) :=
  many do
    match ← lexeme with
    | .jsxText =>
      let span := (← token).span
      advanceBy false Token.jsxChild?
      return some { kind := .jsxText, span }
    | .mark "\x7b" => return some (← childContainer g)
    | .mark "<" =>
      if ← ahead (do advance; atMark "/") then return none
      else return some (← g (.element true))
    | _ => failure

def closingTag (name : Option String) (nested : Bool) : Parser Node := do
  let start ← start
  expect "<"
  expect "/"
  let parts ← match name with
    | some name =>
      let (node, text) ← tagName
      require (text == name)
      pure [node]
    | none => pure []
  tagEnd nested
  finish start .jsxClosing parts

def fragment (g : Grammar) (start : Nat) (nested : Bool) : Parser Node := do
  tagEnd true
  let children ← elementChildren g
  let _ ← closingTag none nested
  finish start .jsxFragment children

def element (g : Grammar) (nested : Bool) : Parser Node := do
  let start ← start
  expect "<"
  if ← atMark ">" then fragment g start nested
  else
    let (tag, name) ← tagName
    let types ← if (← typed) && (← atMark "<") then pure [← typeArguments g] else pure []
    let attributes ← many do
      if ← atMarks ["/", ">"] then return none else return some (← tagAttribute g)
    if ← eat "/" then
      tagEnd nested
      let opening ← finish start .jsxOpening (tag :: types ++ attributes)
      finish start .jsxElement [opening]
    else
      tagEnd true
      let opening ← finish start .jsxOpening (tag :: types ++ attributes)
      let children ← elementChildren g
      let closing ← closingTag (some name) nested
      finish start .jsxElement (opening :: children ++ [closing])

end ClientBoundary.Syntax.Parser
