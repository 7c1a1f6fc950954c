import ClientBoundary.Ledger
import ClientBoundary.Module

/-! Rules. A rule listens to the visits of a module, keeps a state of its own while it does, and
says what it finds. Rules with the severities they report under make up a registry. -/
namespace ClientBoundary

inductive RuleCategory where
  | serverComponents
  deriving DecidableEq, Repr

structure RuleInfo where
  name : String
  description : String
  category : RuleCategory
  fixable : Bool
  defaultSeverity : Severity
  deriving DecidableEq, Repr

structure Rule where
  info : RuleInfo
  State : Type
  start : State
  react : Module → Syntax.Visit → State → State × List Remark

/-- A rule that hands over nothing but findings. -/
def Rule.ofFindings {State : Type} (info : RuleInfo) (start : State)
    (react : Module → Syntax.Visit → State → State × List Finding) : Rule where
  info := info
  State := State
  start := start
  react module visit state :=
    let (state, findings) := react module visit state
    (state, findings.map .found)

structure RuleEntry where
  rule : Rule
  severity : Severity

abbrev Registry := List RuleEntry

namespace Registry

def register (registry : Registry) (rule : Rule) (severity : Option Severity := none) : Registry :=
  registry ++ [⟨rule, severity.getD rule.info.defaultSeverity⟩]

def contains (registry : Registry) (name : String) : Bool :=
  registry.any (·.rule.info.name = name)

end Registry

/-- A registered rule at work on a module. -/
structure Listener where
  entry : RuleEntry
  state : entry.rule.State

namespace Listener

def ofEntry (entry : RuleEntry) : Listener := ⟨entry, entry.rule.start⟩

def hear (module : Module) (visit : Syntax.Visit) (listener : Listener) (ledger : Ledger) :
    Listener × Ledger :=
  let (state, remarks) := listener.entry.rule.react module visit listener.state
  let ledger := ledger.turnTo listener.entry.rule.info.name listener.entry.severity
  (⟨listener.entry, state⟩, remarks.foldl Ledger.take ledger)

def hearAll (module : Module) (visit : Syntax.Visit) :
    List Listener → Ledger → List Listener × Ledger
  | [], ledger => ([], ledger)
  | listener :: rest, ledger =>
    let (listener, ledger) := listener.hear module visit ledger
    let (rest, ledger) := hearAll module visit rest ledger
    (listener :: rest, ledger)

def follow (module : Module) : List Syntax.Visit → List Listener × Ledger → List Listener × Ledger
  | [], now => now
  | visit :: rest, (listeners, ledger) =>
    follow module rest (hearAll module visit listeners ledger)

end Listener

def Registry.inspect (registry : Registry) (module : Module) : Ledger :=
  (Listener.follow module module.visits (registry.map Listener.ofEntry, {})).2

end ClientBoundary
