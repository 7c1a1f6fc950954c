import ClientBoundary.Syntax.Statement

/-! Declarations of the typed dialects: aliases, interfaces, enumerations and namespaces, and
declarations without an implementation. -/
namespace ClientBoundary.Syntax

mutual

/-- Whether a statement of a namespace leaves something behind at run time. -/
def Node.hasValue : Node → Bool
  | ⟨.interface _, _, _, _, _⟩ => false
  | ⟨.typeAlias _, _, _, _, _⟩ => false
  | ⟨.importDeclaration, _, _, _, _⟩ => false
  | ⟨.importAlias _ _, _, _, _, _⟩ => false
  | ⟨.namespaceNode _ hasValues, _, _, _, _⟩ => hasValues
  | ⟨.exportNamed, _, items, _, _⟩ => items.isEmpty || Node.haveValue items
  | _ => true

def Node.haveValue : List Node → Bool
  | [] => false
  | node :: rest => node.hasValue || Node.haveValue rest

end

/-- Says that the first name of an expression is looked up among types. -/
def Node.asTypeReference : Node → Node
  | ⟨.identifier name _, span, children, role, mark⟩ =>
    ⟨.identifier name .type, span, children, role, mark⟩
  | ⟨.staticMember property, span, [object], role, mark⟩ =>
    let object := match object.asTypeReference with
      | ⟨.identifier name _, span, children, role, mark⟩ =>
        ⟨.identifier name .qualifier, span, children, role, mark⟩
      | object => object
    ⟨.staticMember property, span, [object], role, mark⟩
  | ⟨.instantiation, span, expression :: rest, role, mark⟩ =>
    ⟨.instantiation, span, expression.asTypeReference :: rest, role, mark⟩
  | node => node

namespace Parser

/-- Whether words that could be names start a declaration here. -/
def atTypedDeclaration : Parser Bool := do
  if !(← typed) then return false
  else ahead do
    -- modifiers have to stay on one line with what they belong to
    let _ ← many do
      let modifies ← ahead do
        require (← atWords ["abstract", "accessor", "async", "declare", "private", "protected",
          "public", "readonly", "static"])
        advance
        return !(← afterBreak)
      if modifies then advance; return some () else return none
    match ← lexeme with
    | .word name false =>
      if ["var", "let", "const", "function", "class", "enum"].contains name then return true
      else if ["interface", "type"].contains name then
        advance
        return !(← afterBreak) && (← atName)
      else if ["module", "namespace"].contains name then
        advance
        let named ← match ← lexeme with
          | .string _ => pure true
          | _ => atName
        return !(← afterBreak) && named
      else if name == "global" then
        advance
        atMark "\x7b"
      else if name == "import" then
        advance
        return (← atAnyWord) || (← atMarks ["*", "\x7b"])
      else return false
    | _ => return false

def typeAlias (g : Grammar) (start : Nat) : Parser Node := do
  expectWord "type"
  let name ← name
  let types ← typeParameters g
  expect "="
  let type ← g .type
  semicolon
  finish start (.typeAlias name) (types ++ [type])

def interface (g : Grammar) (start : Nat) : Parser Node := do
  expectWord "interface"
  let name ← name
  let types ← typeParameters g
  let parents ← if ← eatWord "extends" then
      let (items, _) ← commaList (atMark "\x7b") do
        let start ← Parser.start
        let expression ← g .leftHandSide
        let arguments ← typeArgumentsHere g
        finish start .heritage (expression.asTypeReference :: arguments)
      faultIf items.isEmpty
      pure items
    else pure []
  let members ← typeMembers g
  finish start (.interface name) (types ++ parents ++ members)

/-- The name of an entry, which is never a number. -/
def enumKey : Parser String := do
  match ← lexeme with
  | .word name _ => advance; return name
  | .string value => advance; return value
  | .mark "[" =>
    advance
    let name ← match ← lexeme with
      | .string value => advance; pure value
      | .template true _ => advance; pure ""
      | _ => failure
    expect "]"
    return name
  | _ => failure

def enumMember (g : Grammar) : Parser Node := do
  let start ← start
  let name ← enumKey
  let init ← if ← eat "=" then pure [(← assignment g).inRole .init] else pure []
  finish start (.enumMember name) init

def enumDeclaration (g : Grammar) (start : Nat) : Parser Node := do
  let _ ← eatWord "const"
  expectWord "enum"
  let name ← name
  let bodyStart ← Parser.start
  expect "\x7b"
  let (members, _) ← bracketed (commaList (atMark "\x7d") (enumMember g))
  expect "\x7d"
  let body ← finish bodyStart .enumBody members
  finish start (.enum name) [body]

def namespaceItems (g : Grammar) : Parser (List Node) := do
  expect "\x7b"
  let items ← within (fun c => { c with returns := false }) (statements g)
  expect "\x7d"
  return items

/-- `namespace A.B { … }` is a namespace in a namespace. -/
def namespaceDeclaration (g : Grammar) (start : Nat) : Parser Node := do
  advance
  match ← lexeme with
  | .string _ =>
    advance
    if ← atMark "\x7b" then
      let items ← namespaceItems g
      finish start (.namespaceNode none true) items
    else
      semicolon
      finish start (.namespaceNode none true)
  | _ =>
    let first ← name
    let inner ← many do
      if ← eat "." then
        let start ← Parser.start
        return some (start, ← name)
      else return none
    let items ← namespaceItems g
    let hasValues := Node.haveValue items
    let items ← inner.foldrM (fun (start, name) items => do
      return [← finish start (.namespaceNode (some name) hasValues) items]) items
    finish start (.namespaceNode (some first) hasValues) items

def globalDeclaration (g : Grammar) (start : Nat) : Parser Node := do
  expectWord "global"
  let items ← namespaceItems g
  finish start .globalAugmentation items

def importAliasRest (start : Nat) (name : String) (typeOnly : Bool) : Parser Node := do
  expect "="
  let requires ← ahead do
    expectWord "require"
    atMark "("
  if requires then
    advance
    advance
    let _ ← string
    expect ")"
    semicolon
    finish start (.importAlias name typeOnly)
  else
    let reference ← dottedReference
    semicolon
    finish start (.importAlias name typeOnly) [{ reference with kind := match reference.kind with
      | .identifier name _ => .identifier name .qualifier
      | kind => kind }]

def classDeclaration (g : Grammar) (start : Nat) (decorators : List Node) : Parser Node := do
  let words ← if ← typed then modifiers ["abstract", "declare"] else pure []
  within (fun c => { c with ambient := c.ambient || words.contains "declare" })
    (classRest g start true decorators)

def typedDeclaration (g : Grammar) : Parser Node := do
  let start ← start
  let words ← modifiers ["declare", "abstract"]
  let declares := words.contains "declare"
  faultIf (words.eraseDups.length ≠ words.length)
  faultIf (words.contains "abstract" && !(← atWord "class"))
  within (fun c => { c with ambient := c.ambient || declares }) do
    match ← lexeme with
    | .word "type" false => typeAlias g start
    | .word "interface" false => interface g start
    | .word "enum" false => enumDeclaration g start
    | .word "namespace" false | .word "module" false => namespaceDeclaration g start
    | .word "global" false => globalDeclaration g start
    | .word "class" false => classRest g start true []
    | .word "function" false => functionDeclaration g start false false
    | .word "async" false =>
      advance
      functionDeclaration g start true false
    | .word "const" false =>
      if ← ahead (do advance; atWord "enum") then enumDeclaration g start
      else
        advance
        variablesRest g start .constWord
    | .word "var" false =>
      advance
      variablesRest g start .varWord
    | .word "let" false =>
      advance
      variablesRest g start .letWord
    | .word "import" false =>
      advance
      let name ← name
      importAliasRest start name false
    | _ => failure

end Parser

end ClientBoundary.Syntax
