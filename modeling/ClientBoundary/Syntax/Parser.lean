import ClientBoundary.Syntax.Dialect
import ClientBoundary.Syntax.Node
import ClientBoundary.Syntax.Token
import ClientBoundary.Text.Bytes

/-! Reading a syntax tree from a text. A parser looks at one token, in a context that says what is
allowed where it stands, and either fails or gives a result and moves on. A mistake that does not
stop the reading is noted as a fault; a text with a fault is refused in the end. -/
namespace ClientBoundary.Syntax

structure Context where
  dialect : Dialect
  /-- More than the number of tokens that are left, for loops. -/
  bound : Nat
  /-- Whether `in` is an operator. -/
  allowsIn : Bool := true
  yields : Bool := false
  awaits : Bool := false
  returns : Bool := false
  /-- Inside of declarations without implementation. -/
  ambient : Bool := false
  /-- Inside of a decorator, where an index belongs to what is decorated. -/
  decorating : Bool := false
  /-- Whether `extends` in a type starts a condition. -/
  allowsConditionalType : Bool := true
  /-- Outside of all functions and classes. -/
  outermost : Bool := true

structure State where
  token : Token
  /-- The text after the token. -/
  rest : List Char
  /-- Where the token before ended. -/
  previousEnd : Nat
  faulty : Bool := false

abbrev Parser := ReaderT Context (StateT State Option)

namespace Parser

variable {α : Type}

/-- Reads the token that starts after a gap, or right here. -/
def tokenAt? (skips : Bool) (reader : List Char → Option Token.Reading) (offset : Nat)
    (text : List Char) : Option (Token × List Char) := do
  let (offset, broken, text) ← if skips then Token.skipGap .blank offset false text
    else some (offset, false, text)
  let (lexeme, bytes, rest) ← reader text
  return (⟨lexeme, ⟨offset, offset + bytes⟩, broken, text⟩, rest)

/-- Moves to the next token, which the reader reads. -/
def advanceBy (skips : Bool) (reader : List Char → Option Token.Reading) : Parser Unit := do
  let state ← get
  let (token, rest) ← tokenAt? skips reader state.token.span.stop state.rest
  set { state with token, rest, previousEnd := state.token.span.stop }

def advance : Parser Unit := advanceBy true Token.code?

def readAgain (reader : List Char → Option Token.Reading) : Parser Unit := do
  let state ← get
  let (lexeme, bytes, rest) ← reader state.token.text
  let start := state.token.span.start
  set { state with token := { state.token with lexeme, span := ⟨start, start + bytes⟩ }, rest }

def token : Parser Token := return (← get).token

def lexeme : Parser Lexeme := return (← get).token.lexeme

def start : Parser Nat := return (← get).token.span.start

def afterBreak : Parser Bool := return (← get).token.afterBreak

def dialect : Parser Dialect := return (← read).dialect

def typed : Parser Bool := return (← dialect).typed

def fault : Parser Unit := modify fun state => { state with faulty := true }

def faultIf (condition : Bool) : Parser Unit := if condition then fault else pure ()

def require (condition : Bool) : Parser Unit := if condition then pure () else failure

def within (change : Context → Context) (parser : Parser α) : Parser α := fun context =>
  parser (change context)

/-- Runs a parser and goes back to where it started. -/
def lookAhead (parser : Parser α) : Parser (Option α) := do
  let state ← get
  let result ← (some <$> parser) <|> pure none
  set state
  return result

/-- Whether a test holds of what is ahead; a test that fails does not. -/
def ahead (test : Parser Bool) : Parser Bool := return (← lookAhead test).getD false

def attempt (parser : Parser α) : Parser (Option α) := (some <$> parser) <|> pure none

/-- Repeats a step as long as it gives a next value. -/
def loop (step : α → Parser (Option α)) : Nat → α → Parser α
  | 0, _ => failure
  | bound + 1, value => do
    match ← step value with
    | some next => loop step bound next
    | none => return value

def iterate (value : α) (step : α → Parser (Option α)) : Parser α := do
  loop step (← read).bound value

def many (item : Parser (Option α)) : Parser (List α) := do
  let items ← iterate [] fun items => do
    match ← item with
    | some next => return some (next :: items)
    | none => return none
  return items.reverse

/-- Items with commas between them, up to a closing mark that is not read; a comma may stand
before it. Tells whether one does. -/
def commaList (closes : Parser Bool) (item : Parser α) : Parser (List α × Bool) := do
  let (items, more) ← iterate ([], true) fun (items, more) => do
    if !more || (← closes) then return none
    let next ← item
    let comma := (← lexeme) == .mark ","
    if comma then advance
    return some (next :: items, comma)
  return (items.reverse, more && !items.isEmpty)

def atMark (text : String) : Parser Bool := return (← lexeme) == .mark text

def atMarks (texts : List String) : Parser Bool := do
  match ← lexeme with
  | .mark text => return texts.contains text
  | _ => return false

def atWord (name : String) : Parser Bool := return (← lexeme) == .word name false

def atWords (names : List String) : Parser Bool := do
  match ← lexeme with
  | .word name false => return names.contains name
  | _ => return false

def atEnd : Parser Bool := return (← lexeme) == .endOfText

def eat (text : String) : Parser Bool := do
  if ← atMark text then advance; return true else return false

def eatWord (name : String) : Parser Bool := do
  if ← atWord name then advance; return true else return false

def eatIf (allowed : Bool) (text : String) : Parser Bool :=
  if allowed then eat text else return false

def eatWordIf (allowed : Bool) (name : String) : Parser Bool :=
  if allowed then eatWord name else return false

def expect (text : String) : Parser Unit := do require (← eat text)

def expectWord (name : String) : Parser Unit := do require (← eatWord name)

def canEndStatement : Parser Bool := do
  return (← atMarks [";", "\x7d"]) || (← atEnd) || (← afterBreak)

def semicolon : Parser Unit := do
  require (← canEndStatement)
  let _ ← eat ";"

def finish (start : Nat) (kind : Kind) (children : List Node := []) : Parser Node := do
  return { kind, span := ⟨start, (← get).previousEnd⟩, children }

/-- A node without parts for the current token, which is passed. -/
def leaf (kind : Kind) : Parser Node := do
  let span := (← token).span
  advance
  return { kind, span }

end Parser

def reservedWords : List String :=
  ["break", "case", "catch", "class", "const", "continue", "debugger", "default", "delete", "do",
   "else", "enum", "export", "extends", "false", "finally", "for", "function", "if", "import",
   "in", "instanceof", "new", "null", "return", "super", "switch", "this", "throw", "true", "try",
   "typeof", "var", "void", "while", "with"]

def isReserved (name : String) : Bool := reservedWords.contains name

namespace Parser

/-- The name at the current token, if it may name something here. -/
def nameHere? : Parser (Option String) := do
  let context ← read
  match ← lexeme with
  | .word name _ =>
    if isReserved name || (context.yields && name == "yield") || (context.awaits && name == "await")
    then return none else return some name
  | _ => return none

def atName : Parser Bool := return (← nameHere?).isSome

def atAnyWord : Parser Bool := do
  match ← lexeme with
  | .word _ _ => return true
  | _ => return false

def name : Parser String := do
  match ← nameHere? with
  | some name => advance; return name
  | none => failure

def anyWord : Parser String := do
  match ← lexeme with
  | .word name _ => advance; return name
  | _ => failure

def string : Parser String := do
  match ← lexeme with
  | .string value => advance; return value
  | _ => failure

def readText (parser : Parser α) : Parser (α × String) := do
  let before := (← get).token
  let result ← parser
  let length := (← get).previousEnd - before.span.start
  let text := (Text.cut? length before.text).map Prod.fst
  return (result, String.ofList (text.getD []))

end Parser

end ClientBoundary.Syntax
