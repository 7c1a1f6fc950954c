import ClientBoundary.Rule
import ClientBoundary.UseClient.Detection
import ClientBoundary.UseClient.Directive

/-! The rule: a module that needs the client says so in its first statement, and no other does. The
first thing that needs the client is reported, once; all of them are recorded. -/
namespace ClientBoundary.UseClient

open Syntax

structure Analysis where
  directive : Option Span := none
  firstStatementStart : Nat := 0
  freeNames : List String := []
  constructs : List Construct := []
  hasReported : Bool := false
  deriving DecidableEq, Repr

namespace Analysis

def ofProgram (program : Node) (freeNames : List String) : Analysis where
  directive := clientDirective? program
  firstStatementStart := UseClient.firstStatementStart program
  freeNames := freeNames

def hasDirective (analysis : Analysis) : Bool := analysis.directive.isSome

def record (analysis : Analysis) (construct : Construct) : Analysis :=
  { analysis with constructs := analysis.constructs ++ [construct] }

def markReported (analysis : Analysis) : Analysis := { analysis with hasReported := true }

/-- Reports that the directive is missing, unless it is there or this has been said before. -/
def reportMissing (analysis : Analysis) (source : String) (construct : Construct) :
    Analysis × List Finding :=
  if analysis.hasDirective || analysis.hasReported then (analysis, [])
  else
    (analysis.markReported,
      [{ messageId := construct.kind.messageId
         message := construct.message
         span := construct.span
         fix := insertDirective source analysis.firstStatementStart }])

def find (analysis : Analysis) (source : String) (construct : Construct) :
    Analysis × List Finding :=
  let (analysis, findings) := analysis.reportMissing source construct
  (analysis.record construct, findings)

def findAll (source : String) : List Construct → Analysis → Analysis × List Finding
  | [], analysis => (analysis, [])
  | construct :: rest, analysis =>
    let (analysis, first) := analysis.find source construct
    let (analysis, others) := findAll source rest analysis
    (analysis, first ++ others)

def reportRedundant (analysis : Analysis) : List Finding :=
  match analysis.directive with
  | some span =>
    if analysis.constructs.isEmpty then
      [{ messageId := redundantId
         message := redundantMessage
         span
         fix := removeDirective span }]
    else []
  | none => []

end Analysis

def info : RuleInfo where
  name := "react-server-components/use-client"
  description := "Enforce components are appropriately labeled with 'use client'"
  category := .serverComponents
  fixable := true
  defaultSeverity := .error

def react (pragma : String) (module : Module) (visit : Visit) (analysis : Analysis) :
    Analysis × List Finding :=
  match visit.event with
  | .enterProgram => (.ofProgram module.tree (module.freeNames 0), [])
  | .exitProgram => (analysis, analysis.reportRedundant)
  | _ => Analysis.findAll module.source (constructsAt pragma module analysis.freeNames visit) analysis

/-- The rule for components of a library that goes by a name. -/
def rule (pragma : String) : ClientBoundary.Rule := .ofFindings info ({} : Analysis) (react pragma)

end ClientBoundary.UseClient
