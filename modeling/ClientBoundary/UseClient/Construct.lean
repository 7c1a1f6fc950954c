import ClientBoundary.Text.Span

/-! Things that only work on the client, and what is said about them. -/
namespace ClientBoundary.UseClient

inductive ConstructKind where
  | hook
  | browserApi
  | eventCallback
  | classComponent
  deriving DecidableEq, Repr

structure Construct where
  kind : ConstructKind
  name : String
  span : Span
  deriving DecidableEq, Repr

def ConstructKind.messageId : ConstructKind → String
  | .hook => "addUseClientHooks"
  | .browserApi => "addUseClientBrowserAPI"
  | .eventCallback => "addUseClientCallbacks"
  | .classComponent => "addUseClientClassComponent"

/-- The message for a kind; that for hooks has a place for the name. -/
def ConstructKind.template : ConstructKind → String
  | .hook => "\x7b\x7bhook\x7d\x7d only works in Client Components. Add the \"use client\" directive at the top of the file to use it."
  | .browserApi => "Browser APIs only work in Client Components. Add the \"use client\" directive at the top of the file to use it."
  | .eventCallback => "Functions can only be passed as props to Client Components. Add the \"use client\" directive at the top of the file to use it."
  | .classComponent => "React Class Components can only be used in Client Components. Add the \"use client\" directive at the top of the file."

/-- The message for a construct, with its name where the template has a place for it. -/
def Construct.message (construct : Construct) : String :=
  match construct.kind with
  | .hook => construct.kind.template.replace "\x7b\x7bhook\x7d\x7d" construct.name
  | kind => kind.template

def redundantId : String := "removeUseClient"

def redundantMessage : String :=
  "This file does not require the 'use client' directive, and it should be removed."

end ClientBoundary.UseClient
