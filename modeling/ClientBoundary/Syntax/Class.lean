import ClientBoundary.Syntax.Function
import ClientBoundary.Syntax.TypeSyntax

/-! Classes and their members. -/
namespace ClientBoundary.Syntax.Parser

/-- A name with dots in a type clause: only its first part refers to something. -/
def dottedReference : Parser Node := do
  let start ← start
  let name ← name
  let dotted ← atMark "."
  let reference ← finish start (.identifier name (if dotted then .qualifier else .type))
  dottedNames
  return reference

def implementsClause (g : Grammar) : Parser (List Node) := do
  if ← eatWordIf (← typed) "implements" then
    let (items, trailing) ← commaList (atMark "\x7b") do
      let start ← start
      let reference ← dottedReference
      let arguments ← typeArgumentsHere g
      finish start .implements (reference :: arguments)
    faultIf (items.isEmpty || trailing)
    return items
  else return []

def extendsClause (g : Grammar) : Parser (List Node) := do
  if ← eatWord "extends" then
    let base ← g .leftHandSide
    let parts := match base.kind, base.children with
      | .instantiation, [expression, arguments] => [expression.inRole .superClass, arguments]
      | _, _ => [base.inRole .superClass]
    let arguments ← if ← typed then typeArgumentsHere g else pure []
    faultIf (← atMark ",")
    return parts ++ arguments
  else return []

def memberKey (g : Grammar) : Parser Node := do
  match ← lexeme with
  | .privateName name =>
    faultIf (name == "constructor")
    return (← leaf (.propertyName ("#" ++ name))).inRole .key
  | _ => propertyKey g

/-- Code that runs for each new object: no function around it reaches in. -/
def insideClass (context : Context) : Context :=
  { context with
    awaits := false, yields := false, returns := false, allowsIn := true, outermost := false,
    decorating := false }

def staticBlock (g : Grammar) (start : Nat) : Parser Node := do
  expectWord "static"
  expect "\x7b"
  let items ← within (fun c => { insideClass c with awaits := true }) (statements g)
  expect "\x7d"
  finish start .staticBlock items

def memberModifiers : Bool → List String
  | true => ["public", "private", "protected", "static", "abstract", "override", "readonly",
      "declare", "async", "accessor"]
  | false => ["static", "async", "accessor"]

/-- The modifiers that may not stand before a modifier of a member. -/
def notBefore : String → List String
  | "public" | "private" | "protected" =>
    ["public", "private", "protected", "static", "abstract", "override", "readonly", "async",
      "accessor"]
  | "static" => ["static", "abstract", "override", "readonly", "async", "accessor"]
  | "abstract" => ["abstract", "private", "static", "override", "async", "accessor"]
  | "override" => ["override", "readonly", "declare", "async", "accessor"]
  | "readonly" => ["readonly", "accessor"]
  | "declare" => ["declare", "override", "async", "accessor"]
  | "async" => ["async", "abstract", "declare"]
  | "accessor" => ["accessor", "readonly", "declare"]
  | _ => []

def areOrdered : List String → Bool
  | [] => true
  | first :: rest => rest.all (fun later => !(notBefore later).contains first) && areOrdered rest

/-- Whether a member is a getter or setter: the word is followed by a key. -/
def accessorWord? : Parser (Option String) := do
  match ← lexeme with
  | .word name false =>
    let isAccessor ← ahead do
      advance
      return (← followsModifier) && !(← atMarks ["\x7b", "*", "..."])
    return if (name == "get" || name == "set") && isAccessor then some name else none
  | _ => return none

/-- The name under which a member is known, if its key is not computed. -/
def keyName (key : Node) : Option String :=
  match key.kind with
  | .propertyName name => some name
  | _ => none

def field (g : Grammar) (start : Nat) (kind : Kind) (front : List Node) : Parser Node := do
  let type ← typeAnnotation g
  let value ← if ← eat "=" then
      pure [(← within insideClass (assignment g)).inRole .value]
    else pure []
  semicolon
  finish start kind (front ++ type ++ value)

def member (g : Grammar) : Parser Node := do
  let start ← start
  let decorators ← decorators g
  if ← ahead (do expectWord "static"; atMark "\x7b") then staticBlock g start
  else
    let isTyped ← typed
    let modifiers ← many do
      if ← ahead (do expectWord "static"; atMark "\x7b") then return none
      else modifier? (memberModifiers isTyped)
    faultIf !(areOrdered modifiers)
    let isStatic := modifiers.contains "static"
    if isTyped && (← atIndexSignature) then indexSignature g start
    else if let some word ← accessorWord? then
      advance
      let key ← memberKey g
      faultIf (!isStatic && keyName key == some "constructor")
      faultIf (isStatic && keyName key == some "prototype")
      faultIf (modifiers.any ["async", "accessor", "declare"].contains)
      let method ← within insideClass (accessorRest g (word == "get") false)
      finish start .method (decorators ++ [key, method])
    else
      let isGenerator ← eat "*"
      let isAsync := modifiers.contains "async"
      let key ← memberKey g
      faultIf (isStatic && keyName key == some "prototype")
      if isTyped then let _ ← (do if ← atMarks ["?", "!"] then advance)
      if (← atMarks ["(", "<"]) then
        faultIf (modifiers.contains "accessor")
        faultIf (!isStatic && keyName key == some "constructor" && (isAsync || isGenerator))
        let method ← within insideClass (methodRest g { isAsync, isGenerator } false)
        finish start .method (decorators ++ [key, method])
      else
        require (!isAsync && !isGenerator)
        faultIf (keyName key == some "constructor")
        let kind := if modifiers.contains "accessor" then Kind.accessorField else Kind.field
        field g start kind (decorators ++ [key])

def classBody (g : Grammar) : Parser Node := do
  let start ← start
  expect "\x7b"
  let members ← many do
    let _ ← many do if ← eat ";" then return some () else return none
    if ← atMark "\x7d" then return none else return some (← member g)
  expect "\x7d"
  finish start .classBody members

/-- A class from its keyword on. Decorators are evaluated outside of the class. -/
def classRest (g : Grammar) (start : Nat) (declares : Bool) (decorators : List Node) :
    Parser Node := do
  expectWord "class"
  let atClause ← ahead do
    expectWord "implements"
    atName
  let name ← if (← atName) && !((← typed) && atClause) then some <$> name else pure none
  let types ← typeParameters g
  let base ← extendsClause g
  let interfaces ← implementsClause g
  let body ← classBody g
  finish start (.classNode declares name)
    (decorators.map (·.inRole .head) ++ types ++ base ++ interfaces ++ [body])

end ClientBoundary.Syntax.Parser
