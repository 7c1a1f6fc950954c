import ClientBoundary.Text.Edit
import ClientBoundary.Text.Span

/-! Findings of the rules: what is wrong, where, how bad it is, and how to mend it. -/
namespace ClientBoundary

inductive Severity where
  | error
  | warning
  deriving DecidableEq, Repr

structure Diagnostic where
  rule : String
  messageId : String
  severity : Severity
  message : String
  span : Span
  fix : Option Fix
  deriving DecidableEq, Repr

def Severity.count (severity : Severity) (diagnostics : List Diagnostic) : Nat :=
  diagnostics.countP (·.severity = severity)

/-- What a terminal shows of a diagnostic: the fix speaks as a hint, and the span is a label
with a length. -/
structure Notice where
  message : String
  severity : Severity
  help : Option String
  labelStart : Nat
  labelLength : Nat
  deriving DecidableEq, Repr

def Diagnostic.notice (diagnostic : Diagnostic) : Notice where
  message := diagnostic.message
  severity := diagnostic.severity
  help := diagnostic.fix.map (·.message)
  labelStart := diagnostic.span.start
  labelLength := diagnostic.span.stop - diagnostic.span.start

/-- The text after the fixes of all diagnostics that go together. -/
def applyFixes? (source : String) (diagnostics : List Diagnostic) : Option String :=
  Fix.applyAll? (diagnostics.filterMap (·.fix)) source

structure Summary where
  errors : Nat := 0
  warnings : Nat := 0
  files : Nat := 0
  deriving DecidableEq, Repr

namespace Summary

def add (summary : Summary) (diagnostic : Diagnostic) : Summary :=
  match diagnostic.severity with
  | .error => { summary with errors := summary.errors + 1 }
  | .warning => { summary with warnings := summary.warnings + 1 }

def hasErrors (summary : Summary) : Bool := 0 < summary.errors

end Summary

end ClientBoundary
