import ClientBoundary.Proofs.FixPass

/-! The severity of a rule is a label. It is put on what the rule says and is looked at by no rule,
so rules under other severities say the same, and the fixes do the same. -/
namespace ClientBoundary

def Severity.other : Severity → Severity
  | .error => .warning
  | .warning => .error

def Diagnostic.relabel (diagnostic : Diagnostic) : Diagnostic :=
  { diagnostic with severity := diagnostic.severity.other }

def RuleEntry.relabel (entry : RuleEntry) : RuleEntry :=
  { entry with severity := entry.severity.other }

theorem Severity.count_relabel (severity : Severity) (diagnostics : List Diagnostic) :
    severity.count (diagnostics.map .relabel) = severity.other.count diagnostics := by
  rw [count, count, List.countP_map]
  refine List.countP_congr fun diagnostic _ => ?_
  cases severity <;> cases label : diagnostic.severity <;>
    simp [Diagnostic.relabel, other, label]

namespace Listener

open Syntax

def relabel (listener : Listener) : Listener := ⟨listener.entry.relabel, listener.state⟩

variable (module : Module)

theorem remarks_relabel (visit : Visit) {listener : Listener}
    (finds : listener.entry.rule.FindsOnly) :
    listener.relabel.remarks module visit = (listener.remarks module visit).map .relabel := by
  rw [remarks, remarks, List.map_map]
  refine List.map_congr_left fun remark said => ?_
  obtain ⟨finding, rfl⟩ := finds module visit listener.state remark said
  rfl

theorem table_relabel (visits : List Visit) (listeners : List Listener)
    (find : ∀ listener ∈ listeners, listener.entry.rule.FindsOnly) (ledger : Ledger) :
    table module visits (listeners.map relabel, ledger) =
      (table module visits (listeners, ledger)).map (List.map (List.map .relabel)) := by
  induction visits generalizing listeners with
  | nil => rfl
  | cons visit rest ih =>
    have row : (listeners.map relabel).map (remarks module visit) =
        (listeners.map (remarks module visit)).map (List.map .relabel) := by
      rw [List.map_map, List.map_map]
      exact List.map_congr_left fun listener member => remarks_relabel module visit (find listener member)
    have later : (listeners.map relabel).map (next module visit) =
        (listeners.map (next module visit)).map relabel := by
      rw [List.map_map, List.map_map]
      rfl
    have findLater : ∀ listener ∈ listeners.map (next module visit), listener.entry.rule.FindsOnly := by
      intro listener member
      obtain ⟨before, isBefore, rfl⟩ := List.mem_map.mp member
      exact find before isBefore
    rw [table_cons, table_cons, row, later, ih _ findLater, List.map_cons]

end Listener

namespace LintResult

def relabel (result : LintResult) : LintResult where
  fileName := result.fileName
  diagnostics := result.diagnostics.map .relabel
  errors := result.warnings
  warnings := result.errors

theorem fixes_relabel (result : LintResult) : result.relabel.fixes = result.fixes := by
  rw [fixes, relabel, List.filterMap_map]
  rfl

end LintResult

namespace Registry

section Relabel

variable {registry : Registry} (find : ∀ entry ∈ registry, entry.rule.FindsOnly)

include find

theorem inspect_relabel (module : Module) :
    (Registry.inspect (registry.map .relabel) module).diagnostics =
      (registry.inspect module).diagnostics.map .relabel := by
  have listeners : (registry.map RuleEntry.relabel).map Listener.ofEntry =
      (registry.map Listener.ofEntry).map Listener.relabel := by
    rw [List.map_map, List.map_map]
    rfl
  have findAtStart : ∀ listener ∈ registry.map Listener.ofEntry, listener.entry.rule.FindsOnly := by
    intro listener member
    obtain ⟨entry, isEntry, rfl⟩ := List.mem_map.mp member
    exact find entry isEntry
  rw [inspect_diagnostics, inspect_diagnostics, listeners,
    Listener.table_relabel module module.visits _ findAtStart, List.map_flatten, List.map_flatten]

/-- Every rule under its other severity: the same is reported under the other label. -/
theorem lintModule_relabel (source fileName : String) :
    Registry.lintModule (registry.map .relabel) source fileName =
      (registry.lintModule source fileName).map LintResult.relabel := by
  cases read : Module.read? fileName source with
  | none => simp only [lintModule, read, Except.map]
  | some module =>
    have here := registry.inspect_balanced module
    have there := Registry.inspect_balanced (registry.map .relabel) module
    rw [lintModule_of_read _ read, lintModule_of_read _ read, Except.map, LintResult.relabel,
      inspect_relabel find, there.errors, there.warnings, inspect_relabel find, Severity.count_relabel,
      Severity.count_relabel, here.errors, here.warnings]
    rfl

end Relabel

/-- Registries that always come upon the same fixes leave the same text behind. -/
theorem fixWithin_congr {first second : Registry} {fileName : String}
    (same : ∀ text, (first.lintModule text fileName).map LintResult.fixes =
      (second.lintModule text fileName).map LintResult.fixes) (passes : Nat) (source : String) :
    first.fixWithin fileName passes source = second.fixWithin fileName passes source := by
  induction passes generalizing source with
  | zero => rfl
  | succ passes ih => simp only [fixWithin_succ, same, ih]

theorem fixModule_relabel {registry : Registry} (find : ∀ entry ∈ registry, entry.rule.FindsOnly)
    (source fileName : String) :
    Registry.fixModule (registry.map .relabel) source fileName =
      registry.fixModule source fileName := by
  refine fixWithin_congr (fun text => ?_) maxFixPasses source
  rw [lintModule_relabel find]
  cases registry.lintModule text fileName with
  | error error => rfl
  | ok result => exact congrArg Except.ok result.fixes_relabel

theorem lintModule_nil {fileName source : String} {module : Module}
    (read : Module.read? fileName source = some module) :
    Registry.lintModule [] source fileName = .ok ⟨fileName, [], 0, 0⟩ := by
  have balanced := Registry.inspect_balanced [] module
  have silent : (Registry.inspect [] module).diagnostics = [] := by
    rw [List.eq_nil_iff_forall_not_mem]
    intro diagnostic reported
    obtain ⟨entry, member, _⟩ := (mem_inspect_diagnostics [] module).mp reported
    cases member
  rw [lintModule_of_read _ read, balanced.errors, balanced.warnings, silent]
  rfl

end Registry

namespace Config

/-- A config registers the rule if it is not off. -/
theorem registry_eq_map (config : Config) :
    config.registry =
      (config.severityFor UseClient.info.name UseClient.info.defaultSeverity).toList.map
        (⟨UseClient.rule config.libraryName, ·⟩) := by
  unfold registry
  cases config.severityFor UseClient.info.name UseClient.info.defaultSeverity <;> rfl

theorem registry_of_warn {config : Config}
    (warns : config.setting? UseClient.info.name = some .warn) :
    config.registry = [⟨UseClient.rule config.libraryName, .warning⟩] := by
  rw [registry_eq_map, severityFor, warns]
  rfl

theorem registry_of_error {config : Config}
    (errs : config.setting? UseClient.info.name = some .error) :
    config.registry = [⟨UseClient.rule config.libraryName, .error⟩] := by
  rw [registry_eq_map, severityFor, errs]
  rfl

theorem registry_of_off {config : Config}
    (off : config.setting? UseClient.info.name = some .off) : config.registry = [] := by
  rw [registry_eq_map, severityFor, off]
  rfl

theorem registry_of_on {config : Config}
    (on : config.setting? UseClient.info.name ≠ some .off) :
    ∃ severity, config.registry = [⟨UseClient.rule config.libraryName, severity⟩] := by
  rw [registry_eq_map, severityFor]
  split
  · next off => exact absurd off on
  · exact ⟨.warning, rfl⟩
  · exact ⟨.error, rfl⟩
  · exact ⟨UseClient.info.defaultSeverity, rfl⟩

end Config

theorem Registry.severity_of_alone {entry : RuleEntry} (finds : entry.rule.FindsOnly)
    {fileName source : String} {result : LintResult}
    (linted : Registry.lintModule [entry] source fileName = .ok result) :
    ∀ diagnostic ∈ result.diagnostics, diagnostic.severity = entry.severity := by
  cases read : Module.read? fileName source with
  | none => simp only [lintModule, read, reduceCtorEq] at linted
  | some module =>
    cases (lintModule_of_read _ read).symm.trans linted
    intro diagnostic member
    rw [inspect_diagnostics] at member
    exact (Listener.mem_table_alone module module.visits (.ofEntry entry) finds {} diagnostic member).2

/-- Severity is only a label. Of two configs that know the component library under the same name and
set the rule to a warning and to an error, one reports what the other reports, under the other
severity and with the counts exchanged, and both fix alike; and a config with the rule off reports
nothing and fixes nothing. -/
theorem severity_only_labels {warned strict off : Config}
    (warns : warned.setting? "react-server-components/use-client" = some .warn)
    (errs : strict.setting? "react-server-components/use-client" = some .error)
    (disables : off.setting? "react-server-components/use-client" = some .off)
    (same : strict.libraryName = warned.libraryName) (source fileName : String) :
    strict.registry.lintModule source fileName =
      (warned.registry.lintModule source fileName).map (fun result =>
        { fileName := result.fileName
          diagnostics := result.diagnostics.map ({ · with severity := .error })
          errors := result.warnings
          warnings := result.errors }) ∧
    (∀ result, warned.registry.lintModule source fileName = .ok result →
      ∀ diagnostic ∈ result.diagnostics, diagnostic.severity = .warning) ∧
    strict.registry.fixModule source fileName = warned.registry.fixModule source fileName ∧
    ∀ module, Module.read? fileName source = some module →
      off.registry.lintModule source fileName = .ok ⟨fileName, [], 0, 0⟩ ∧
      off.registry.fixModule source fileName = .ok source := by
  have relabelled : strict.registry = warned.registry.map .relabel := by
    rw [Config.registry_of_warn warns, Config.registry_of_error errs, same]
    rfl
  have find : ∀ entry ∈ warned.registry, entry.rule.FindsOnly := by
    rw [Config.registry_of_warn warns]
    intro entry member
    rw [List.mem_singleton.mp member]
    exact Rule.ofFindings_findsOnly _ _ _
  have warnings : ∀ result, warned.registry.lintModule source fileName = .ok result →
      ∀ diagnostic ∈ result.diagnostics, diagnostic.severity = .warning := by
    rw [Config.registry_of_warn warns]
    exact fun result linted => Registry.severity_of_alone (Rule.ofFindings_findsOnly _ _ _) linted
  refine ⟨?_, warnings, ?_, ?_⟩
  · rw [relabelled, Registry.lintModule_relabel find]
    cases linted : warned.registry.lintModule source fileName with
    | error error => rfl
    | ok result =>
      refine congrArg Except.ok (congrArg (LintResult.mk _ · _ _) ?_)
      refine List.map_congr_left fun diagnostic member => ?_
      rw [Diagnostic.relabel, warnings result linted diagnostic member]
      rfl
  · rw [relabelled, Registry.fixModule_relabel find]
  · intro module read
    rw [Config.registry_of_off disables]
    have linted := Registry.lintModule_nil read
    exact ⟨linted, Registry.fixWithin_of_no_fix linted rfl _⟩

/-- A browser name at the top of a module, under all three settings. -/
theorem severity_only_labels_browser_name :
    ∃ warning error,
      Registry.lintModule (Config.registry ⟨none, [(UseClient.info.name, .warn)], none⟩)
        "window.a" "page.jsx" = .ok warning ∧
      Registry.lintModule (Config.registry ⟨none, [(UseClient.info.name, .error)], none⟩)
        "window.a" "page.jsx" = .ok error ∧
      warning.errors = 0 ∧ warning.warnings = 1 ∧ error.errors = 1 ∧ error.warnings = 0 ∧
      error.diagnostics = warning.diagnostics.map ({ · with severity := .error }) ∧
      Registry.fixModule (Config.registry ⟨none, [(UseClient.info.name, .error)], none⟩)
        "window.a" "page.jsx" =
      Registry.fixModule (Config.registry ⟨none, [(UseClient.info.name, .warn)], none⟩)
        "window.a" "page.jsx" ∧
      Registry.fixModule (Config.registry ⟨none, [(UseClient.info.name, .off)], none⟩)
        "window.a" "page.jsx" = .ok "window.a" := by
  obtain ⟨relabels, _, fixes, off⟩ := @severity_only_labels
    ⟨none, [(UseClient.info.name, .warn)], none⟩ ⟨none, [(UseClient.info.name, .error)], none⟩
    ⟨none, [(UseClient.info.name, .off)], none⟩ (by decide) (by decide) (by decide) rfl
    "window.a" "page.jsx"
  obtain ⟨module, read⟩ := Option.isSome_iff_exists.mp (show
    (Module.read? "page.jsx" "window.a").isSome = true by decide +kernel)
  have counts : (Registry.lintModule
      (Config.registry ⟨none, [(UseClient.info.name, .warn)], none⟩)
        "window.a" "page.jsx").toOption.any
          (fun result => (result.errors = 0 ∧ result.warnings = 1 : Bool)) = true := by
    decide +kernel
  have linted := Registry.lintModule_of_read
    (Config.registry ⟨none, [(UseClient.info.name, .warn)], none⟩) read
  rw [linted] at counts relabels
  obtain ⟨errors, warnings⟩ := of_decide_eq_true counts
  exact ⟨_, _, linted, relabels, errors, warnings, warnings, errors, rfl, fixes,
    (off module read).2⟩

end ClientBoundary
