import ClientBoundary.Syntax.Declaration

/-! Imports and exports, and whole modules. -/
namespace ClientBoundary.Syntax

namespace Parser

/-- `with { type: "…" }` after the module of an import. -/
def importAttributes (g : Grammar) : Parser Unit := do
  if (← atWord "with") || ((← atWord "assert") && !(← afterBreak)) then
    advance
    expect "\x7b"
    let _ ← commaList (atMark "\x7d") do
      let _ ← propertyKey g
      expect ":"
      string
    expect "\x7d"

def fromModule (g : Grammar) : Parser Unit := do
  expectWord "from"
  let _ ← string
  importAttributes g

/-- A name in the braces of an import or export, which may be a string. -/
def entryName : Parser String := do
  match ← lexeme with
  | .string value => advance; return value
  | _ => anyWord

/-- An entry of an import or export list: whether it is for types only, its name on the inside of
the braces with its token, and the name after `as`. -/
structure Entry where
  typeOnly : Bool
  token : Token
  name : String
  newName : Option (Token × String)

def entryAlias : Parser (Option (Token × String)) := do
  if ← eatWord "as" then
    let token ← token
    return some (token, ← entryName)
  else return none

/-- `type` in front of an entry is a modifier, unless it is the entry. -/
def entry : Parser Entry := do
  let first ← token
  let name ← entryName
  let atEntry : Parser Bool := do
    match ← lexeme with
    | .word _ _ | .string _ => return true
    | _ => return false
  if (← typed) && first.lexeme == .word "type" false && (← atEntry) then
    let second ← token
    let isAlias ← ahead do
      expectWord "as"
      if ← eatWord "as" then return !(← atEntry) else atEntry
    if isAlias then
      return ⟨false, first, name, ← entryAlias⟩
    else
      let name ← entryName
      return ⟨true, second, name, ← entryAlias⟩
  else return ⟨false, first, name, ← entryAlias⟩

def Entry.localName (entry : Entry) : Token × String := entry.newName.getD (entry.token, entry.name)

def importedEntry (typeOnly : Bool) : Parser Node := do
  let start ← start
  let entry ← entry
  let (token, name) := entry.localName
  let isWord := match token.lexeme with
    | .word _ _ => true
    | _ => false
  require (isWord && !isReserved name)
  finish start (.importBinding name (typeOnly || entry.typeOnly))

def importNamespace (typeOnly : Bool) : Parser Node := do
  let start ← start
  expect "*"
  expectWord "as"
  let name ← name
  finish start (.importBinding name typeOnly)

def importEntries (typeOnly : Bool) : Parser (List Node) := do
  if ← atMark "*" then return [← importNamespace typeOnly]
  else
    expect "\x7b"
    let (items, _) ← commaList (atMark "\x7d") (importedEntry typeOnly)
    expect "\x7d"
    return items

/-- Whether the word here says how to import rather than being a name. -/
def atImportPhase (word : String) (follows : Parser Bool) : Parser Bool :=
  ahead do
    expectWord word
    follows

/-- Whether `type` in front of imports says that they are for types only. -/
def atTypeImport : Parser Bool := do
  if !(← typed) then return false
  else atImportPhase "type" do
    if ← atMarks ["\x7b", "*"] then return true
    else if ← atWord "from" then
      advance
      return (← atWord "from") || (← atMark "=")
    else atName

def importDeclaration (g : Grammar) (start : Nat) : Parser Node := do
  expectWord "import"
  match ← lexeme with
  | .string _ =>
    advance
    importAttributes g
    semicolon
    finish start .importDeclaration
  | _ =>
    let typeOnly ← atTypeImport
    if typeOnly then advance
    else if ← atImportPhase "defer" (atMark "*") then advance
    else if ← atImportPhase "source" (do return (← atName) && !(← atWord "from")) then advance
    let defaultStart ← Parser.start
    if ← atName then
      let name ← name
      if (← typed) && (← atMark "=") then importAliasRest start name typeOnly
      else
        let default ← finish defaultStart (.importBinding name typeOnly)
        let entries ← if ← eat "," then importEntries typeOnly else pure []
        fromModule g
        semicolon
        finish start .importDeclaration (default :: entries)
    else
      let entries ← importEntries typeOnly
      fromModule g
      semicolon
      finish start .importDeclaration entries

/-- An import as a statement, or an expression that starts with the same word. -/
def importStatement (g : Grammar) : Parser Node := do
  let start ← start
  if ← ahead (do advance; atMarks ["(", "."]) then
    -- phases are called like functions
    expressionOrLabel g
  else importDeclaration g start

/-- The local name of an exported entry has to be a variable, unless it comes from another
module. -/
def exportedEntry (typeOnly : Bool) : Parser (Entry × Node) := do
  let start ← start
  let entry ← entry
  let use := if typeOnly || entry.typeOnly then Use.type else .valueOrType
  let reference : Node := { kind := .identifier entry.name use, span := entry.token.span }
  let exported := entry.localName.2
  return (entry, ← finish start (.exportSpecifier exported) [reference])

def isVariableEntry (entry : Entry) : Bool :=
  match entry.token.lexeme with
  | .word name _ => !isReserved name
  | _ => false

def exportEntries (g : Grammar) (start : Nat) (typeOnly : Bool) : Parser Node := do
  expect "\x7b"
  let (items, _) ← commaList (atMark "\x7d") (exportedEntry typeOnly)
  expect "\x7d"
  let specifiers ← if ← atWord "from" then
      fromModule g
      pure (items.map fun (_, node) => { node with children := [] })
    else
      faultIf (items.any fun (entry, _) => !isVariableEntry entry)
      pure (items.map Prod.snd)
  semicolon
  finish start .exportNamed specifiers

def exportAll (g : Grammar) (start : Nat) : Parser Node := do
  expect "*"
  let name ← if ← eatWord "as" then some <$> entryName else pure none
  fromModule g
  semicolon
  finish start (.exportAll name)

def exportDefault (g : Grammar) (start : Nat) (pending : List Node) : Parser Node := do
  expectWord "default"
  let valueStart ← Parser.start
  let value ← if ← atWord "function" then functionDeclaration g valueStart false true
    else if ← atAsyncFunction then
      advance
      functionDeclaration g valueStart true true
    else if (← atWord "class") || (← atMark "@") ||
        ((← typed) && (← ahead (do expectWord "abstract"; atWord "class"))) then
      let decorators ← decorators g
      classDeclaration g valueStart (pending ++ decorators)
    else if (← typed) && (← ahead (do
        expectWord "interface"
        return !(← afterBreak) && (← atName))) then interface g valueStart
    else
      let value ← bracketed (assignment g)
      semicolon
      pure (match value.kind with
        | .identifier name _ => { value with kind := .identifier name .valueOrType }
        | _ => value)
  finish start .exportDefault [value.inRole .value]

def exportedDeclaration (g : Grammar) (pending : List Node) : Parser Node := do
  let start ← start
  if (← atWord "class") || (← atMark "@") then
    let decorators ← decorators g
    classDeclaration g start (pending ++ decorators)
  else if ← atWord "function" then functionDeclaration g start false false
  else if ← atAsyncFunction then
    advance
    functionDeclaration g start true false
  else if ← atTypedDeclaration then
    if pending.isEmpty then typedDeclaration g else classDeclaration g start pending
  else match ← variableKeyword? with
    | some keyword => variablesRest g start keyword
    | none => failure

def exportStatement (g : Grammar) (pending : List Node) : Parser Node := do
  let start ← start
  expectWord "export"
  let isTyped ← typed
  match ← lexeme with
  | .mark "*" => exportAll g start
  | .mark "\x7b" => exportEntries g start false
  | .word "default" false => exportDefault g start pending
  | .mark "=" =>
    require isTyped
    advance
    let value ← bracketed (g .expression)
    semicolon
    finish start .exportAssignment [value]
  | _ =>
    if isTyped && (← ahead (do expectWord "as"; atWord "namespace")) then
      advance
      advance
      let _ ← name
      semicolon
      finish start .exportNamespace
    else if isTyped && (← ahead (do expectWord "type"; atMark "\x7b")) then
      advance
      exportEntries g start true
    else if isTyped && (← ahead (do expectWord "type"; atMark "*")) then
      advance
      exportAll g start
    else
      let declaration ← exportedDeclaration g pending
      finish start .exportNamed [declaration]

/-- Decorators belong to the class after them, also past an `export`. -/
def decoratedStatement (g : Grammar) : Parser Node := do
  let start ← start
  let decorators ← decorators g
  if ← atWord "export" then exportStatement g decorators
  else classDeclaration g start decorators

def statement (g : Grammar) (alone : Bool) : Parser Node := do
  let start ← start
  match ← lexeme with
  | .mark "\x7b" => block g
  | .mark ";" => leaf .emptyStatement
  | .mark "@" => decoratedStatement g
  | .word "if" false => ifStatement g
  | .word "while" false => whileStatement g
  | .word "do" false => doWhileStatement g
  | .word "for" false => forStatement g
  | .word "break" false | .word "continue" false => breakStatement
  | .word "return" false => returnStatement g
  | .word "throw" false => throwStatement g
  | .word "with" false => withStatement g
  | .word "switch" false => switchStatement g
  | .word "try" false => tryStatement g
  | .word "debugger" false =>
    advance
    semicolon
    finish start .debuggerStatement
  | .word "import" false => importStatement g
  | .word "export" false => exportStatement g []
  | .word "function" false => functionStatement g alone
  | .word "class" false => classStatement g alone
  | .word "var" false =>
    advance
    variablesRest g start .varWord
  | .word "let" false => letStatement g alone
  | .word "const" false =>
    if (← typed) && (← ahead (do advance; atWord "enum")) then typedDeclaration g
    else
      advance
      faultIf alone
      variablesRest g start .constWord
  | .word "using" false | .word "await" false =>
    if ← atUsing then
      let _ ← eatWord "await"
      advance
      faultIf alone
      variablesRest g start .usingWord
    else expressionOrLabel g
  | .word "async" false =>
    if ← atAsyncFunction then functionStatement g alone else expressionOrLabel g
  | _ =>
    if ← atTypedDeclaration then typedDeclaration g else expressionOrLabel g

end Parser

def Goal.rule (g : Grammar) : Goal → Parser Node
  | .type => Parser.type g
  | .assignment resultType => Parser.assignmentOrArrow g resultType
  | .expression => Parser.expression g
  | .binary above => Parser.binary g above
  | .unary => Parser.unary g
  | .leftHandSide => Parser.leftHandSide g
  | .primary => Parser.primary g
  | .pattern => Parser.pattern g
  | .statement alone => Parser.statement g alone
  | .element nested => Parser.element g nested

/-- The grammar up to a depth of nesting. -/
def grammar : Nat → Grammar
  | 0, _ => failure
  | depth + 1, goal => goal.rule (grammar depth)

/-! Whole modules. -/

mutual

/-- Whether some node of a tree has a property. Trees below an excluded node are passed over. -/
def Node.anyNode (test excluded : Node → Bool) : Node → Bool
  | ⟨kind, span, children, role, mark⟩ =>
    let node : Node := ⟨kind, span, children, role, mark⟩
    !excluded node && (test node || Node.anyNodes test excluded children)

def Node.anyNodes (test excluded : Node → Bool) : List Node → Bool
  | [] => false
  | node :: rest => node.anyNode test excluded || Node.anyNodes test excluded rest

end

def Node.isFunction (node : Node) : Bool :=
  match node.kind with
  | .function _ _ | .arrow _ => true
  | _ => false

/-- A name with a default that did not turn out to be part of a target. -/
def Node.hasStrayDefault (tree : Node) : Bool :=
  tree.anyNode (·.kind = .shorthandDefault) fun _ => false

def isModuleItem (node : Node) : Bool :=
  match node.kind with
  | .importDeclaration | .importAlias _ _ | .exportNamed | .exportDefault | .exportAll _
  | .exportAssignment | .exportNamespace => true
  | _ => false

def Node.usesModules (program : Node) : Bool :=
  program.children.any isModuleItem

def Node.namesAwait (program : Node) : Bool :=
  program.anyNode (fun node => node.identifier? = some "await") Node.isFunction

mutual

def Node.boundNames : Node → List String
  | ⟨.binding name, _, _, _, _⟩ => [name]
  | ⟨.variables _, _, items, _, _⟩ => Node.allBoundNames items
  | ⟨.declarator, _, items, _, _⟩ => Node.allBoundNames items
  | ⟨.objectPattern, _, items, _, _⟩ => Node.allBoundNames items
  | ⟨.arrayPattern, _, items, _, _⟩ => Node.allBoundNames items
  | ⟨.patternProperty, _, items, _, _⟩ => Node.allBoundNames items
  | ⟨.patternDefault, _, items, _, _⟩ => Node.allBoundNames items
  | ⟨.patternRest, _, items, _, _⟩ => Node.allBoundNames items
  | ⟨.function true (some name), _, _, _, _⟩ => [name]
  | ⟨.classNode true (some name), _, _, _, _⟩ => [name]
  | _ => []

def Node.allBoundNames : List Node → List String
  | [] => []
  | node :: rest => node.boundNames ++ Node.allBoundNames rest

end

def Node.exportedNames (node : Node) : List String :=
  match node.kind with
  | .exportDefault => ["default"]
  | .exportAll (some name) => [name]
  | .exportNamed => node.children.flatMap fun item =>
    match item.kind with
    | .exportSpecifier exported => [exported]
    | _ => item.boundNames
  | _ => []

def hasDuplicates (names : List String) : Bool :=
  names.eraseDups.length ≠ names.length

def Context.ofDialect (dialect : Dialect) (bound : Nat) : Context where
  dialect := dialect
  bound := bound
  awaits := dialect.loading = .module
  returns := dialect.loading = .commonModule
  ambient := dialect.ambient

/-- The program of a text, if the text is one and has no fault. -/
def program? (dialect : Dialect) (text : List Char) : Option Node := do
  let size := Text.byteLength text
  let bound := 12 * (text.length + 8)
  let (offset, code) := match text with
    | '\ufeff' :: rest => Token.skipInterpreterLine 3 rest
    | _ => Token.skipInterpreterLine 0 text
  let (token, rest) ← Parser.tokenAt? true Token.code? offset code
  let state : State := { token, rest, previousEnd := offset }
  let reader := Parser.statements (grammar bound)
  let (items, final) ← reader (Context.ofDialect dialect bound) state
  let program : Node :=
    { kind := .program, span := ⟨0, size⟩, children := (markDirectives items).map (·.inRole .item) }
  let duplicated := !dialect.typed && hasDuplicates (items.flatMap Node.exportedNames)
  if final.token.lexeme = .endOfText && !final.faulty && !program.hasStrayDefault && !duplicated
  then return program else none

/-- The syntax tree of a source file. A file that turns out to be a module only by its imports and
exports is read again if it also waits outside of all functions. -/
def parse? (fileName source : String) : Option Node := do
  let dialect := Dialect.ofFileName fileName
  let text := source.toList
  let program ← program? dialect text
  if dialect.loading = .undecided && program.usesModules && program.namesAwait then
    program? { dialect with loading := .module } text
  else return program

end ClientBoundary.Syntax
