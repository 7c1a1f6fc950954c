import ClientBoundary.UseClient.Rule

/-! What a user can set: which rules run, how loud they are, and under which name the component
library is known. -/
namespace ClientBoundary

inductive RuleSetting where
  | off
  | warn
  | error
  deriving DecidableEq, Repr

structure Config where
  schema : Option String := none
  /-- Settings in the order in which they are given; the last one for a rule counts. -/
  rules : List (String × RuleSetting) := []
  pragma : Option String := none
  deriving DecidableEq, Repr

namespace Config

def fileName : String := "rsc-lint.config.json"

def defaultPragma : String := "React"

def libraryName (config : Config) : String := config.pragma.getD defaultPragma

def setting? (config : Config) (rule : String) : Option RuleSetting :=
  (config.rules.reverse.find? (·.1 = rule)).map (·.2)

/-- The severity of a rule, or nothing if it is off. -/
def severityFor (config : Config) (rule : String) (default : Severity) : Option Severity :=
  match config.setting? rule with
  | some .off => none
  | some .warn => some .warning
  | some .error => some .error
  | none => some default

def registry (config : Config) : Registry :=
  match config.severityFor UseClient.info.name UseClient.info.defaultSeverity with
  | some severity => Registry.register [] (UseClient.rule config.libraryName) severity
  | none => []

end Config

def Registry.recommended : Registry := Config.registry {}

end ClientBoundary
