import ClientBoundary.Component
import ClientBoundary.Module
import ClientBoundary.UseClient.BrowserName
import ClientBoundary.UseClient.Construct
import ClientBoundary.UseClient.EventName

/-! Which visits come upon something that only works on the client. -/
namespace ClientBoundary.UseClient

open Syntax

/-- Hooks are named `use` and a capital letter; one of them works on the server. -/
def isClientHook (name : String) : Bool :=
  match name.toList with
  | 'u' :: 's' :: 'e' :: c :: _ => c.isUpper && name ≠ "useId"
  | _ => false

/-- Code that runs when a module is loaded or a component is shown. -/
def runsOnServer (pragma : String) (visit : Visit) : Bool :=
  visit.scope = 0 || (Component.enclosing? pragma visit.ancestors).isSome

/-- A name that only a browser provides, used as itself. The free names of the module tell at once
that most names are not. -/
def browserGlobal? (pragma : String) (freeNames : List String) (visit : Visit) (target : Node)
    (span : Span) : Option Construct :=
  match target.kind with
  | .identifier name _ =>
    if freeNames.contains name && isBrowserOnly name && target.isFree && runsOnServer pragma visit
    then some ⟨.browserApi, name, span⟩ else none
  | _ => none

def hookCall? (pragma : String) (visit : Visit) (call : Node) : Option Construct := do
  let callee ← call.part? .callee
  let name ← match callee.kind with
    | .identifier name _ => some name
    | .staticMember property => some property
    | _ => none
  if isClientHook name && (Component.enclosing? pragma visit.ancestors).isSome then
    some ⟨.hook, name, callee.span⟩
  else none

/-- Whether an attribute is given a function: written out, or by a name declared close by. -/
def passesFunction (module : Module) (scope : Nat) (value : Node) : Bool :=
  let value := value.withoutParentheses
  match value.kind with
  | .identifier name _ =>
    (module.scopes.visibleFrom scope name).any fun (_, binding) => binding.kind.isFunction
  | _ => Scope.isFunctionLiteral value

/-- What an attribute with code in braces comes to: once for its name, as the source has it, and
once for its value. -/
def attributeCallbacks (module : Module) (scope : Nat) (tagAttribute : Node) : List Construct :=
  match tagAttribute.kind, tagAttribute.part? .key, tagAttribute.part? .value with
  | .jsxAttribute, some key, some container =>
    if container.kind = .jsxContainer then
      let name := module.textAt key.span
      (if isEventName name then [⟨.eventCallback, name, key.span⟩] else []) ++
      if (container.part? .value).any (passesFunction module scope) then
        [⟨.eventCallback, name, tagAttribute.span⟩] else []
    else []
  | _, _, _ => []

def eventCallbacks (module : Module) (scope : Nat) (opening : Node) : List Construct :=
  opening.children.flatMap (attributeCallbacks module scope)

def classComponent? (pragma : String) (visit : Visit) (node : Node) : Option Construct :=
  match node.kind with
  | .classNode true name =>
    if Component.isComponent pragma node visit.ancestors then
      some ⟨.classComponent, name.getD "unknown", node.span⟩
    else none
  | _ => none

def constructsAt (pragma : String) (module : Module) (freeNames : List String) (visit : Visit) :
    List Construct :=
  match visit.event with
  | .construction node =>
    ((node.part? .callee).bind (browserGlobal? pragma freeNames visit · node.span)).toList
  | .access object => (browserGlobal? pragma freeNames visit object object.span).toList
  | .call node => (hookCall? pragma visit node).toList
  | .element opening => eventCallbacks module visit.scope opening
  | .classNode node => (classComponent? pragma visit node).toList
  | .enterProgram | .exitProgram => []

end ClientBoundary.UseClient
