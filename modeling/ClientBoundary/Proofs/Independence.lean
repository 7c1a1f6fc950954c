import ClientBoundary.Proofs.Verdict
import Mathlib.Algebra.BigOperators.Group.List.Basic
import Mathlib.Algebra.Ring.Nat

/-! Several rules at work on one module. They share the tour and the ledger and nothing else, so
what the ledger gains while one of them hears of a visit is what it would gain if that one were
alone. The gains make up a table, with a row for each visit and a column for each rule; the ledger
is the table read row by row, and a column is the ledger of a single rule. -/
namespace ClientBoundary

namespace Ledger

structure Balanced (ledger : Ledger) : Prop where
  errors : ledger.errors = Severity.error.count ledger.diagnostics
  warnings : ledger.warnings = Severity.warning.count ledger.diagnostics

namespace Balanced

variable {ledger : Ledger} (balanced : ledger.Balanced)

include balanced

theorem turnTo (rule : String) (severity : Severity) : (ledger.turnTo rule severity).Balanced :=
  ⟨balanced.errors, balanced.warnings⟩

theorem report (diagnostic : Diagnostic) : (ledger.report diagnostic).Balanced := by
  obtain ⟨errors, warnings⟩ := balanced
  cases severity : diagnostic.severity <;>
    constructor <;> simp [Ledger.report, Severity.count, severity, errors, warnings]

theorem foldl_take (remarks : List Remark) : (remarks.foldl take ledger).Balanced := by
  induction remarks generalizing ledger with
  | nil => exact balanced
  | cons remark rest ih =>
    rw [List.foldl_cons, take_eq_report]
    exact ih (balanced.report _)

end Balanced

end Ledger

namespace Rule

def FindsOnly (rule : Rule) : Prop :=
  ∀ module visit state, ∀ remark ∈ (rule.react module visit state).2,
    ∃ finding, remark = .found finding

theorem ofFindings_findsOnly {State : Type} (info : RuleInfo) (start : State)
    (react : Module → Syntax.Visit → State → State × List Finding) :
    (ofFindings info start react).FindsOnly := by
  intro module visit state remark said
  obtain ⟨finding, _, rfl⟩ := List.mem_map.mp said
  exact ⟨finding, rfl⟩

def nextState (rule : Rule) (module : Module) (state : rule.State) (visit : Syntax.Visit) :
    rule.State :=
  (rule.react module visit state).1

/-- What a rule hands over at a visit, after others that it has been told of before. -/
def remarksAfter (rule : Rule) (module : Module) (before : List Syntax.Visit) (visit : Syntax.Visit) :
    List Remark :=
  (rule.react module visit (before.foldl (rule.nextState module) rule.start)).2

end Rule

namespace Listener

open Syntax

section Hear

variable (module : Module) (visit : Visit)

def next (listener : Listener) : Listener :=
  ⟨listener.entry, (listener.entry.rule.react module visit listener.state).1⟩

/-- What a listener remarks of a visit, as it comes to stand in the ledger. -/
def remarks (listener : Listener) : List Diagnostic :=
  (listener.entry.rule.react module visit listener.state).2.map
    (·.entered listener.entry.rule.info.name listener.entry.severity)

/-- What the ledger gains while each listener in turn hears of a visit. -/
def gains : List Listener → Ledger → List (List Diagnostic)
  | [], _ => []
  | listener :: rest, ledger =>
    let after := (listener.hear module visit ledger).2
    after.diagnostics.drop ledger.diagnostics.length :: gains rest after

theorem hear_listener (listener : Listener) (ledger : Ledger) :
    (listener.hear module visit ledger).1 = listener.next module visit := rfl

/-- Whatever rule the ledger had turned to before, a listener speaks for its own. -/
theorem hear_diagnostics (listener : Listener) (ledger : Ledger) :
    (listener.hear module visit ledger).2.diagnostics =
      ledger.diagnostics ++ listener.remarks module visit :=
  Ledger.foldl_take_diagnostics _ _

theorem hear_balanced (listener : Listener) {ledger : Ledger} (balanced : ledger.Balanced) :
    (listener.hear module visit ledger).2.Balanced :=
  (balanced.turnTo _ _).foldl_take _

theorem hearAll_listeners (listeners : List Listener) (ledger : Ledger) :
    (hearAll module visit listeners ledger).1 = listeners.map (next module visit) := by
  induction listeners generalizing ledger with
  | nil => rfl
  | cons listener rest ih =>
    rw [List.map_cons, ← hear_listener module visit listener ledger, ← ih]
    rfl

theorem hearAll_diagnostics (listeners : List Listener) (ledger : Ledger) :
    (hearAll module visit listeners ledger).2.diagnostics =
      ledger.diagnostics ++ listeners.flatMap (remarks module visit) := by
  induction listeners generalizing ledger with
  | nil => simp [hearAll]
  | cons listener rest ih =>
    have others := ih (listener.hear module visit ledger).2
    rw [hear_diagnostics, List.append_assoc] at others
    exact others

theorem hearAll_balanced (listeners : List Listener) {ledger : Ledger}
    (balanced : ledger.Balanced) : (hearAll module visit listeners ledger).2.Balanced := by
  induction listeners generalizing ledger with
  | nil => exact balanced
  | cons listener rest ih => exact ih (hear_balanced module visit listener balanced)

theorem gains_eq_map (listeners : List Listener) (ledger : Ledger) :
    gains module visit listeners ledger = listeners.map (remarks module visit) := by
  induction listeners generalizing ledger with
  | nil => rfl
  | cons listener rest ih =>
    rw [gains, ih, hear_diagnostics, List.drop_left, List.map_cons]

end Hear

variable (module : Module)

/-- The table of what the ledger gains: a row for each visit, with an entry for each listener. -/
def table : List Visit → List Listener × Ledger → List (List (List Diagnostic))
  | [], _ => []
  | visit :: rest, (listeners, ledger) =>
    gains module visit listeners ledger :: table rest (hearAll module visit listeners ledger)

theorem table_step (visit : Visit) (rest : List Visit) (listeners : List Listener)
    (ledger : Ledger) :
    table module (visit :: rest) (listeners, ledger) =
      listeners.map (remarks module visit) ::
        table module rest (listeners.map (next module visit),
          (hearAll module visit listeners ledger).2) := by
  rw [table, gains_eq_map, ← hearAll_listeners module visit listeners ledger]

/-- What was in the ledger before makes no difference to what it gains. -/
theorem table_ledger (visits : List Visit) (listeners : List Listener) (ledger other : Ledger) :
    table module visits (listeners, ledger) = table module visits (listeners, other) := by
  induction visits generalizing listeners ledger other with
  | nil => rfl
  | cons visit rest ih => rw [table_step, table_step, ih]

theorem table_cons (visit : Visit) (rest : List Visit) (listeners : List Listener)
    (ledger : Ledger) :
    table module (visit :: rest) (listeners, ledger) =
      listeners.map (remarks module visit) ::
        table module rest (listeners.map (next module visit), ledger) := by
  rw [table_step, table_ledger module rest _ _ ledger]

theorem table_length (visits : List Visit) (now : List Listener × Ledger) :
    (table module visits now).length = visits.length := by
  induction visits generalizing now with
  | nil => rfl
  | cons visit rest ih => rw [table, List.length_cons, List.length_cons, ih]

theorem row_length (visits : List Visit) (listeners : List Listener) (ledger : Ledger) :
    ∀ row ∈ table module visits (listeners, ledger), row.length = listeners.length := by
  induction visits generalizing listeners ledger with
  | nil => simp [table]
  | cons visit rest ih =>
    intro row member
    rw [table_cons, List.mem_cons] at member
    rcases member with rfl | later
    · exact List.length_map _
    · exact (ih _ _ row later).trans (List.length_map _)

theorem flatten_table_cons (visit : Visit) (rest : List Visit) (listeners : List Listener)
    (ledger : Ledger) :
    (table module (visit :: rest) (listeners, ledger)).flatten.flatten =
      listeners.flatMap (remarks module visit) ++
        (table module rest (listeners.map (next module visit), ledger)).flatten.flatten := by
  rw [table_cons, List.flatten_cons, List.flatten_append, List.flatMap_def]

/-- The ledger is the table, row by row. -/
theorem follow_diagnostics (visits : List Visit) (listeners : List Listener) (ledger : Ledger) :
    (follow module visits (listeners, ledger)).2.diagnostics =
      ledger.diagnostics ++ (table module visits (listeners, ledger)).flatten.flatten := by
  induction visits generalizing listeners ledger with
  | nil => simp [follow, table]
  | cons visit rest ih =>
    have later := ih (hearAll module visit listeners ledger).1
      (hearAll module visit listeners ledger).2
    rw [hearAll_diagnostics, hearAll_listeners, List.append_assoc,
      table_ledger module rest _ _ ledger, ← flatten_table_cons,
      ← hearAll_listeners module visit listeners ledger] at later
    exact later

theorem follow_balanced (visits : List Visit) (listeners : List Listener) {ledger : Ledger}
    (balanced : ledger.Balanced) : (follow module visits (listeners, ledger)).2.Balanced := by
  induction visits generalizing listeners ledger with
  | nil => exact balanced
  | cons visit rest ih => exact ih _ (hearAll_balanced module visit listeners balanced)

/-- A column is the table of a single listener. -/
theorem table_alone (visits : List Visit) {listeners : List Listener} (ledger other : Ledger)
    {position : Nat} {listener : Listener} (here : listeners[position]? = some listener) :
    table module visits ([listener], other) =
      (table module visits (listeners, ledger)).map (·[position]?.toList) := by
  induction visits generalizing listeners ledger other listener with
  | nil => rfl
  | cons visit rest ih =>
    have row : (listeners.map (remarks module visit))[position]?.toList =
        [listener.remarks module visit] := by
      rw [List.getElem?_map, here, Option.map_some, Option.toList_some]
    have later : (listeners.map (next module visit))[position]? =
        some (listener.next module visit) := by
      rw [List.getElem?_map, here, Option.map_some]
    rw [table_cons, table_cons]
    exact congrArg₂ List.cons row.symm (ih _ _ later)

/-- So the counts of the whole table are the sums over the columns. -/
theorem count_table (severity : Severity) (visits : List Visit) (listeners : List Listener)
    (ledger : Ledger) :
    severity.count (table module visits (listeners, ledger)).flatten.flatten =
      (listeners.map fun listener =>
        severity.count (table module visits ([listener], ledger)).flatten.flatten).sum := by
  induction visits generalizing listeners with
  | nil => simp [table, Severity.count]
  | cons visit rest ih =>
    have split (listeners : List Listener) :
        severity.count (table module (visit :: rest) (listeners, ledger)).flatten.flatten =
          (listeners.map fun listener => severity.count (listener.remarks module visit)).sum +
            severity.count
              (table module rest (listeners.map (next module visit), ledger)).flatten.flatten := by
      rw [flatten_table_cons module visit rest listeners, Severity.count,
        List.countP_append, List.countP_flatMap]
      rfl
    rw [split, ih, List.map_map, ← List.sum_map_add]
    refine congrArg List.sum (List.map_congr_left fun listener _ => ?_)
    rw [split [listener], List.map_singleton, List.map_singleton, List.sum_singleton]
    rfl

theorem mem_table {diagnostic : Diagnostic} (visits : List Visit) (listeners : List Listener)
    (ledger : Ledger) :
    diagnostic ∈ (table module visits (listeners, ledger)).flatten.flatten ↔
      ∃ listener ∈ listeners,
        diagnostic ∈ (table module visits ([listener], ledger)).flatten.flatten := by
  induction visits generalizing listeners with
  | nil => simp [table]
  | cons visit rest ih =>
    have column (listener : Listener) :
        diagnostic ∈ (table module (visit :: rest) ([listener], ledger)).flatten.flatten ↔
          diagnostic ∈ listener.remarks module visit ∨
            diagnostic ∈ (table module rest ([listener.next module visit], ledger)).flatten.flatten := by
      rw [flatten_table_cons module visit rest [listener], List.flatMap_singleton,
        List.map_singleton, List.mem_append]
    rw [flatten_table_cons module visit rest listeners, List.mem_append, ih,
      List.mem_flatMap]
    simp only [column, List.mem_map, exists_exists_and_eq_and, and_or_left, exists_or]

theorem mem_table_alone (visits : List Visit) (listener : Listener)
    (finds : listener.entry.rule.FindsOnly) (ledger : Ledger) :
    ∀ diagnostic ∈ (table module visits ([listener], ledger)).flatten.flatten,
      diagnostic.rule = listener.entry.rule.info.name ∧
        diagnostic.severity = listener.entry.severity := by
  induction visits generalizing listener with
  | nil => simp [table]
  | cons visit rest ih =>
    intro diagnostic member
    rw [flatten_table_cons module visit rest [listener], List.flatMap_singleton,
      List.mem_append] at member
    rcases member with now | later
    · obtain ⟨remark, said, rfl⟩ := List.mem_map.mp now
      obtain ⟨finding, rfl⟩ := finds module visit listener.state remark said
      exact ⟨rfl, rfl⟩
    · exact ih (listener.next module visit) finds diagnostic later

/-- The table of a single listener has what it remarks of each visit, in the state that the visits
before have left it in. -/
theorem table_at (before : List Visit) (visit : Visit) (rest : List Visit) (entry : RuleEntry)
    (state : entry.rule.State) (ledger : Ledger) :
    (table module (before ++ visit :: rest) ([⟨entry, state⟩], ledger))[before.length]? =
      some [remarks module visit ⟨entry, before.foldl (entry.rule.nextState module) state⟩] := by
  induction before generalizing state with
  | nil =>
    rw [List.nil_append, table_cons]
    rfl
  | cons first others ih =>
    rw [List.cons_append, table_cons, List.length_cons, List.getElem?_cons_succ]
    exact ih (entry.rule.nextState module state first)

end Listener

namespace Registry

variable (registry : Registry) (module : Module)

theorem inspect_diagnostics :
    (registry.inspect module).diagnostics =
      (Listener.table module module.visits (registry.map .ofEntry, {})).flatten.flatten :=
  Listener.follow_diagnostics module module.visits (registry.map .ofEntry) {}

theorem inspect_balanced : (registry.inspect module).Balanced :=
  Listener.follow_balanced module module.visits (registry.map .ofEntry) ⟨rfl, rfl⟩

theorem mem_inspect_diagnostics {diagnostic : Diagnostic} :
    diagnostic ∈ (registry.inspect module).diagnostics ↔
      ∃ entry ∈ registry, diagnostic ∈ (Registry.inspect [entry] module).diagnostics := by
  rw [inspect_diagnostics, Listener.mem_table]
  simp only [inspect_diagnostics, List.mem_map, exists_exists_and_eq_and, List.map_singleton]

variable {module} in
theorem lintModule_of_read {fileName source : String}
    (read : Module.read? fileName source = some module) :
    registry.lintModule source fileName =
      .ok ⟨fileName, (registry.inspect module).diagnostics, (registry.inspect module).errors,
        (registry.inspect module).warnings⟩ := by
  simp only [lintModule, read]

end Registry

/-- Rules do not interfere. What the shared ledger gains from a rule, at each visit, is what the
rule reports there when it is alone: what it hands over after the visits before, its findings under
its own name and severity and all else as it is. The diagnostics of all rules are these gains, visit
by visit and in the order of the registry, and the counts add up. A rule with nothing but findings
reports all under its own name and severity, and so does the rule for the client directive. -/
theorem rules_independent (registry : Registry) {fileName source : String} {module : Module}
    (read : Module.read? fileName source = some module) :
    ∃ (result : LintResult) (alone : RuleEntry → LintResult),
      registry.lintModule source fileName = .ok result ∧
      (∀ entry, Registry.lintModule [entry] source fileName = .ok (alone entry)) ∧
      let shared := Listener.table module module.visits (registry.map .ofEntry, {})
      result.diagnostics = shared.flatten.flatten ∧
      shared.length = module.visits.length ∧
      (∀ row ∈ shared, row.length = registry.length) ∧
      (∀ (position : Nat) (entry : RuleEntry), registry[position]? = some entry →
        let own := Listener.table module module.visits ([.ofEntry entry], {})
        own = shared.map (·[position]?.toList) ∧
        (alone entry).diagnostics = own.flatten.flatten ∧
        (∀ before visit rest, module.visits = before ++ visit :: rest →
          own[before.length]? = some [(entry.rule.remarksAfter module before visit).map
            (·.entered entry.rule.info.name entry.severity)]) ∧
        (entry.rule.FindsOnly → ∀ diagnostic ∈ (alone entry).diagnostics,
          diagnostic.rule = entry.rule.info.name ∧ diagnostic.severity = entry.severity)) ∧
      (∀ pragma, (UseClient.rule pragma).FindsOnly) ∧
      result.errors = (registry.map fun entry => (alone entry).errors).sum ∧
      result.warnings = (registry.map fun entry => (alone entry).warnings).sum := by
  have count (severity : Severity) : severity.count (registry.inspect module).diagnostics =
      (registry.map fun entry =>
        severity.count (Registry.inspect [entry] module).diagnostics).sum := by
    simp only [Registry.inspect_diagnostics, Listener.count_table module severity module.visits
      (registry.map .ofEntry), List.map_map]
    rfl
  refine ⟨_, fun entry => _, registry.lintModule_of_read read,
    fun entry => Registry.lintModule_of_read [entry] read, registry.inspect_diagnostics module,
    Listener.table_length module _ _, ?_, ?_, fun pragma => Rule.ofFindings_findsOnly _ _ _, ?_, ?_⟩
  · intro row member
    exact (Listener.row_length module _ _ _ row member).trans (List.length_map _)
  · intro position entry here
    have listens : (registry.map Listener.ofEntry)[position]? = some (.ofEntry entry) := by
      rw [List.getElem?_map, here, Option.map_some]
    have reports := Registry.inspect_diagnostics [entry] module
    refine ⟨Listener.table_alone module _ _ _ listens, reports, ?_, fun finds => ?_⟩
    · intro before visit rest split
      rw [split]
      exact Listener.table_at module before visit rest entry entry.rule.start {}
    · dsimp only
      rw [reports]
      exact Listener.mem_table_alone module module.visits (.ofEntry entry) finds {}
  · simpa only [(registry.inspect_balanced module).errors,
      (Registry.inspect_balanced [_] module).errors] using count .error
  · simpa only [(registry.inspect_balanced module).warnings,
      (Registry.inspect_balanced [_] module).warnings] using count .warning

/-- Two rules that know the component library under different names. The second one speaks first,
since it takes the class for a component. -/
theorem rules_independent_two_names :
    ∃ module result first second,
      Module.read? "page.jsx" "class A extends P.Component\x7b\x7dwindow.a" = some module ∧
      Registry.lintModule [⟨UseClient.rule "React", .error⟩, ⟨UseClient.rule "P", .warning⟩]
        "class A extends P.Component\x7b\x7dwindow.a" "page.jsx" = .ok result ∧
      Registry.lintModule [⟨UseClient.rule "React", .error⟩]
        "class A extends P.Component\x7b\x7dwindow.a" "page.jsx" = .ok first ∧
      Registry.lintModule [⟨UseClient.rule "P", .warning⟩]
        "class A extends P.Component\x7b\x7dwindow.a" "page.jsx" = .ok second ∧
      (let shared := Listener.table module module.visits
        ([.ofEntry ⟨UseClient.rule "React", .error⟩, .ofEntry ⟨UseClient.rule "P", .warning⟩], {})
      result.diagnostics = shared.flatten.flatten ∧
      first.diagnostics = (shared.map (·[0]?.toList)).flatten.flatten ∧
      second.diagnostics = (shared.map (·[1]?.toList)).flatten.flatten) ∧
      result.diagnostics.map (·.severity) = [.warning, .error] ∧
      result.errors = first.errors + second.errors ∧
      result.warnings = first.warnings + second.warnings := by
  obtain ⟨module, read⟩ := Option.isSome_iff_exists.mp (show (Module.read? "page.jsx"
    "class A extends P.Component\x7b\x7dwindow.a").isSome = true by decide +kernel)
  obtain ⟨result, alone, linted, lintedAlone, diagnostics, _, _, columns, _, errors, warnings⟩ :=
    rules_independent [⟨UseClient.rule "React", .error⟩, ⟨UseClient.rule "P", .warning⟩] read
  obtain ⟨first, firstReports, _⟩ := columns 0 _ rfl
  obtain ⟨second, secondReports, _⟩ := columns 1 _ rfl
  have severities : (Registry.lintModule
      [⟨UseClient.rule "React", .error⟩, ⟨UseClient.rule "P", .warning⟩]
      "class A extends P.Component\x7b\x7dwindow.a" "page.jsx").toOption.any
        (·.diagnostics.map (·.severity) = [.warning, .error]) = true := by decide +kernel
  rw [linted] at severities
  exact ⟨module, result, _, _, read, linted, lintedAlone _, lintedAlone _,
    ⟨diagnostics, firstReports.trans (by rw [first]; rfl),
      secondReports.trans (by rw [second]; rfl)⟩,
    of_decide_eq_true severities, errors, warnings⟩

/-- A rule that hands over one diagnostic as it is, on entering the program. -/
def Rule.announcing (info : RuleInfo) (diagnostic : Diagnostic) : Rule where
  info := info
  State := Unit
  start := ()
  react _ visit _ := match visit.event with
    | .enterProgram => ((), [.plain diagnostic])
    | _ => ((), [])

/-- A diagnostic that is not a finding keeps the name and severity that it comes with, also if they
are not those of the rule that hands it over. -/
theorem plain_diagnostic_keeps_label :
    let diagnostic : Diagnostic := ⟨"second", "", .error, "", ⟨0, 0⟩, none⟩
    let rule := Rule.announcing ⟨"first", "", .serverComponents, false, .error⟩ diagnostic
    ∃ result, Registry.lintModule [⟨rule, .warning⟩] "" "page.jsx" = .ok result ∧
      diagnostic ∈ result.diagnostics ∧ diagnostic.rule ≠ rule.info.name ∧
      diagnostic.severity ≠ .warning := by
  intro diagnostic rule
  have reports : (Registry.lintModule [⟨rule, .warning⟩] "" "page.jsx").toOption =
      some ⟨"page.jsx", [diagnostic], 1, 0⟩ := by decide +kernel
  cases linted : Registry.lintModule [⟨rule, .warning⟩] "" "page.jsx" with
  | error cause =>
    rw [linted] at reports
    cases reports
  | ok result =>
    rw [linted] at reports
    obtain rfl := Option.some.inj reports
    exact ⟨_, rfl, List.mem_singleton_self _, by decide, by decide⟩

end ClientBoundary
