import ClientBoundary.Diagnostic

/-! The ledger of one module: rules report into it, one rule at a time, and it counts. -/
namespace ClientBoundary

/-- What a rule finds, with a fix for it; the name and severity of the rule are added when it is
entered. -/
structure Finding where
  messageId : String
  message : String
  span : Span
  fix : Fix
  deriving DecidableEq, Repr

inductive Remark where
  /-- A diagnostic that is taken as it is, whatever rule and severity it names. -/
  | plain (diagnostic : Diagnostic)
  | found (finding : Finding)
  deriving DecidableEq, Repr

structure Ledger where
  rule : String := ""
  severity : Severity := .error
  diagnostics : List Diagnostic := []
  errors : Nat := 0
  warnings : Nat := 0
  deriving DecidableEq, Repr

namespace Ledger

def turnTo (ledger : Ledger) (rule : String) (severity : Severity) : Ledger :=
  { ledger with rule, severity }

def report (ledger : Ledger) (diagnostic : Diagnostic) : Ledger :=
  let diagnostics := ledger.diagnostics ++ [diagnostic]
  match diagnostic.severity with
  | .error => { ledger with diagnostics, errors := ledger.errors + 1 }
  | .warning => { ledger with diagnostics, warnings := ledger.warnings + 1 }

def enter (ledger : Ledger) (finding : Finding) : Ledger :=
  ledger.report {
    rule := ledger.rule
    messageId := finding.messageId
    severity := ledger.severity
    message := finding.message
    span := finding.span
    fix := some finding.fix }

def take (ledger : Ledger) : Remark → Ledger
  | .plain diagnostic => ledger.report diagnostic
  | .found finding => ledger.enter finding

end Ledger

end ClientBoundary
