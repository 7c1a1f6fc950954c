import ClientBoundary.Linter

/-! What the rule says of a module. It is decided by two facts, the leading directive and the list
of constructs that the visits come upon: the rule reports once, as soon as the directive is missing
and something has been found, and the record only grows. -/
namespace ClientBoundary

def Finding.entered (finding : Finding) (rule : String) (severity : Severity) : Diagnostic where
  rule := rule
  messageId := finding.messageId
  severity := severity
  message := finding.message
  span := finding.span
  fix := some finding.fix

/-- A remark in the ledger; only a finding is put under the name and severity of its rule. -/
def Remark.entered (remark : Remark) (rule : String) (severity : Severity) : Diagnostic :=
  match remark with
  | .plain diagnostic => diagnostic
  | .found finding => finding.entered rule severity

namespace Ledger

theorem report_rule (ledger : Ledger) (diagnostic : Diagnostic) :
    (ledger.report diagnostic).rule = ledger.rule ∧
      (ledger.report diagnostic).severity = ledger.severity := by
  unfold report
  cases diagnostic.severity <;> exact ⟨rfl, rfl⟩

theorem report_diagnostics (ledger : Ledger) (diagnostic : Diagnostic) :
    (ledger.report diagnostic).diagnostics = ledger.diagnostics ++ [diagnostic] := by
  unfold report
  cases diagnostic.severity <;> rfl

theorem take_eq_report (ledger : Ledger) (remark : Remark) :
    ledger.take remark = ledger.report (remark.entered ledger.rule ledger.severity) := by
  cases remark <;> rfl

/-- Remarks are taken one after the other, all while it is the turn of one rule. -/
theorem foldl_take_diagnostics (remarks : List Remark) (ledger : Ledger) :
    (remarks.foldl take ledger).diagnostics =
      ledger.diagnostics ++ remarks.map (·.entered ledger.rule ledger.severity) := by
  induction remarks generalizing ledger with
  | nil => simp
  | cons remark rest ih =>
    obtain ⟨rule, severity⟩ := report_rule ledger (remark.entered ledger.rule ledger.severity)
    rw [List.foldl_cons, take_eq_report, ih, report_diagnostics, rule, severity]
    simp

theorem foldl_take_findings (findings : List Finding) (ledger : Ledger) :
    ((findings.map .found).foldl take ledger).diagnostics =
      ledger.diagnostics ++ findings.map (·.entered ledger.rule ledger.severity) := by
  rw [foldl_take_diagnostics, List.map_map]
  rfl

end Ledger

namespace Syntax

def Event.IsInner (event : Event) : Prop := event ≠ .enterProgram ∧ event ≠ .exitProgram

theorem Event.of?_isInner {node : Node} {event : Event} (made : Event.of? node = some event) :
    event.IsInner := by
  unfold Event.of? at made
  split at made
  · cases made; exact ⟨nofun, nofun⟩
  · obtain ⟨object, _, rfl⟩ := Option.map_eq_some_iff.mp made; exact ⟨nofun, nofun⟩
  · obtain ⟨object, _, rfl⟩ := Option.map_eq_some_iff.mp made; exact ⟨nofun, nofun⟩
  · cases made; exact ⟨nofun, nofun⟩
  · cases made; exact ⟨nofun, nofun⟩
  · cases made; exact ⟨nofun, nofun⟩
  · cases made

/-- Every visit of a tour is made on entering some node. -/
theorem enter_of_mem_visitsAlong {around : Surroundings} {moves : List Move} {visit : Visit}
    (member : visit ∈ visitsAlong around moves) :
    ∃ node, .enter node ∈ moves ∧ Event.of? node = some visit.event := by
  induction moves generalizing around with
  | nil => simp [visitsAlong] at member
  | cons move rest ih =>
    unfold visitsAlong at member
    cases made : around.visit? move with
    | none =>
      obtain ⟨node, entered, event⟩ := ih (by simpa [made] using member)
      exact ⟨node, List.mem_cons_of_mem _ entered, event⟩
    | some first =>
      simp only [made, List.mem_cons] at member
      rcases member with rfl | later
      · cases move with
        | enter node =>
          obtain ⟨event, isMade, rfl⟩ := Option.map_eq_some_iff.mp made
          exact ⟨node, List.mem_cons_self, isMade⟩
        | openScope id => cases made
        | closeScope => cases made
        | leave => cases made
      · obtain ⟨node, entered, event⟩ := ih later
        exact ⟨node, List.mem_cons_of_mem _ entered, event⟩

/-- Between entering and leaving the program, the tour makes inner visits only. -/
theorem visitsAlong_isInner (around : Surroundings) (moves : List Move) :
    ∀ visit ∈ visitsAlong around moves, visit.event.IsInner := by
  intro visit member
  obtain ⟨node, _, made⟩ := enter_of_mem_visitsAlong member
  exact Event.of?_isInner made

end Syntax

theorem Module.read?_source {fileName source : String} {module : Module}
    (read : Module.read? fileName source = some module) :
    module.fileName = fileName ∧ module.source = source := by
  obtain ⟨program, _, rfl⟩ := Option.map_eq_some_iff.mp read
  exact ⟨rfl, rfl⟩

namespace UseClient

open Syntax

/-- A program whose prologue starts with the client directive, at a span. -/
def LeadsWithDirective (program : Node) (span : Span) : Prop :=
  ∃ first rest, program.children = first :: rest ∧ first.kind = .directive directiveText ∧
    first.span = span

theorem clientDirective?_eq_some_iff {program : Node} {span : Span} :
    clientDirective? program = some span ↔ LeadsWithDirective program span := by
  unfold clientDirective? firstDirective? LeadsWithDirective
  constructor
  · intro found
    split at found
    · next value stretch matched =>
      split at matched
      · next first children =>
        obtain ⟨rfl, rfl⟩ := Prod.mk.inj (Option.some.inj matched)
        split at found
        · next same => exact ⟨_, _, children, by rw [same], Option.some.inj found⟩
        · cases found
      · cases matched
    · cases found
  · rintro ⟨⟨kind, stretch, parts, role, mark⟩, rest, children, rfl, rfl⟩
    simp [children]

def missingFinding (module : Module) (construct : Construct) : Finding where
  messageId := construct.kind.messageId
  message := construct.message
  span := construct.span
  fix := insertDirective module.source (firstStatementStart module.tree)

def redundantFinding (directive : Span) : Finding where
  messageId := redundantId
  message := redundantMessage
  span := directive
  fix := removeDirective directive

/-- What is said as soon as some constructs have been found. -/
def missing (module : Module) (found : List Construct) : List Finding :=
  match clientDirective? module.tree, found with
  | none, first :: _ => [missingFinding module first]
  | _, _ => []

/-- What is said of a whole module. -/
def verdict (module : Module) (found : List Construct) : List Finding :=
  match clientDirective? module.tree, found with
  | none, first :: _ => [missingFinding module first]
  | some directive, [] => [redundantFinding directive]
  | _, _ => []

namespace Analysis

/-- The state of the rule in a module once some constructs have been found. -/
def having (module : Module) (found : List Construct) : Analysis :=
  { Analysis.ofProgram module.tree (module.freeNames 0) with
    constructs := found
    hasReported := (clientDirective? module.tree).isNone && !found.isEmpty }

/-- One more construct: it goes to the record, and is reported if it is the first one and the
directive is missing. The report comes before the record, so it depends on what was there. -/
theorem find_having (module : Module) (found : List Construct) (construct : Construct) :
    ∃ findings,
      (having module found).find module.source construct =
        (having module (found ++ [construct]), findings) ∧
      missing module (found ++ [construct]) = missing module found ++ findings := by
  cases directive : clientDirective? module.tree with
  | some span =>
    refine ⟨[], ?_, ?_⟩
    · simp [find, reportMissing, hasDirective, record, having, ofProgram, directive]
    · simp [missing, directive]
  | none =>
    cases found with
    | nil =>
      refine ⟨[missingFinding module construct], ?_, ?_⟩
      · simp [find, reportMissing, hasDirective, record, markReported, having, ofProgram, directive,
          missingFinding]
      · simp [missing, directive]
    | cons first rest =>
      refine ⟨[], ?_, ?_⟩
      · simp [find, reportMissing, hasDirective, record, having, ofProgram, directive]
      · simp [missing, directive]

theorem findAll_having (module : Module) (found constructs : List Construct) :
    ∃ findings,
      findAll module.source constructs (having module found) =
        (having module (found ++ constructs), findings) ∧
      missing module (found ++ constructs) = missing module found ++ findings := by
  induction constructs generalizing found with
  | nil => exact ⟨[], by simp [findAll], by simp⟩
  | cons construct rest ih =>
    obtain ⟨first, found_first, said_first⟩ := find_having module found construct
    obtain ⟨others, found_others, said_others⟩ := ih (found ++ [construct])
    have all : found ++ [construct] ++ rest = found ++ construct :: rest := by simp
    refine ⟨first ++ others, ?_, ?_⟩
    · simp only [findAll, found_first, found_others, all]
    · rw [← all, said_others, said_first, List.append_assoc]

end Analysis

section Run

variable (pragma : String) (severity : Severity) (module : Module)

def constructsAlong (visits : List Visit) : List Construct :=
  visits.flatMap (constructsAt pragma module (module.freeNames 0))

def listener (analysis : Analysis) : Listener := ⟨⟨rule pragma, severity⟩, analysis⟩

theorem react_inner (found : List Construct) {visit : Visit} (inner : visit.event.IsInner) :
    react pragma module visit (.having module found) =
      Analysis.findAll module.source (constructsAt pragma module (module.freeNames 0) visit)
        (.having module found) := by
  obtain ⟨event, ancestors, scope⟩ := visit
  cases event
  case enterProgram => exact absurd rfl inner.1
  case exitProgram => exact absurd rfl inner.2
  all_goals rfl

theorem follow_cons (visit : Visit) (rest : List Visit) (analysis : Analysis) (ledger : Ledger) :
    Listener.follow module (visit :: rest) ([listener pragma severity analysis], ledger) =
      Listener.follow module rest
        ([listener pragma severity (react pragma module visit analysis).1],
          ((react pragma module visit analysis).2.map .found).foldl Ledger.take
            (ledger.turnTo info.name severity)) := rfl

theorem follow_append (module : Module) (first rest : List Visit) (now : List Listener × Ledger) :
    Listener.follow module (first ++ rest) now =
      Listener.follow module rest (Listener.follow module first now) := by
  induction first generalizing now with
  | nil => rfl
  | cons visit others ih => exact ih _

/-- The run below the program: the state holds what has been found so far, and the ledger what had
to be said about it. -/
theorem follow_inner (visits : List Visit) (inner : ∀ visit ∈ visits, visit.event.IsInner)
    (found : List Construct) (ledger : Ledger)
    (said : ledger.diagnostics = (missing module found).map (·.entered info.name severity)) :
    ∃ after, Listener.follow module visits
        ([listener pragma severity (.having module found)], ledger) =
          ([listener pragma severity
            (.having module (found ++ constructsAlong pragma module visits))], after) ∧
      after.diagnostics = (missing module (found ++ constructsAlong pragma module visits)).map
        (·.entered info.name severity) := by
  induction visits generalizing found ledger with
  | nil => exact ⟨ledger, by simp [Listener.follow, constructsAlong], by simpa [constructsAlong]⟩
  | cons visit rest ih =>
    obtain ⟨findings, reacts, grows⟩ := Analysis.findAll_having module found
      (constructsAt pragma module (module.freeNames 0) visit)
    rw [follow_cons, react_inner pragma module found (inner visit List.mem_cons_self), reacts]
    have entered : ((findings.map .found).foldl Ledger.take
        (ledger.turnTo info.name severity)).diagnostics =
          (missing module (found ++ constructsAt pragma module (module.freeNames 0) visit)).map
          (·.entered info.name severity) := by
      rw [Ledger.foldl_take_findings, grows, List.map_append, ← said]
      rfl
    obtain ⟨after, follows, diagnostics⟩ :=
      ih (fun visit member => inner visit (List.mem_cons_of_mem _ member)) _ _ entered
    have all : found ++ constructsAt pragma module (module.freeNames 0) visit ++
        constructsAlong pragma module rest =
          found ++ constructsAlong pragma module (visit :: rest) := by
      simp [constructsAlong]
    rw [all] at follows diagnostics
    exact ⟨after, follows, diagnostics⟩

theorem react_enter (ancestors : List Node) (scope : Nat) (analysis : Analysis) :
    react pragma module ⟨.enterProgram, ancestors, scope⟩ analysis = (.having module [], []) := by
  simp [react, Analysis.having, Analysis.ofProgram]

theorem react_exit (ancestors : List Node) (scope : Nat) (found : List Construct) :
    ∃ findings,
      react pragma module ⟨.exitProgram, ancestors, scope⟩ (.having module found) =
        (.having module found, findings) ∧
      verdict module found = missing module found ++ findings := by
  refine ⟨_, rfl, ?_⟩
  cases directive : clientDirective? module.tree <;> cases found <;>
    simp [verdict, missing, Analysis.reportRedundant, Analysis.having, Analysis.ofProgram,
      directive, redundantFinding]

/-- The run up to any point of the tour, the program being entered. -/
theorem follow_entered (visits : List Visit) (inner : ∀ visit ∈ visits, visit.event.IsInner)
    (ancestors : List Node) (scope : Nat) :
    ∃ after, Listener.follow module (⟨.enterProgram, ancestors, scope⟩ :: visits)
        ([.ofEntry ⟨rule pragma, severity⟩], {}) =
          ([listener pragma severity (.having module (constructsAlong pragma module visits))],
            after) ∧
      after.diagnostics = (missing module (constructsAlong pragma module visits)).map
        (·.entered info.name severity) := by
  have silent : (({} : Ledger).turnTo info.name severity).diagnostics =
      (missing module []).map (·.entered info.name severity) := by
    cases directive : clientDirective? module.tree <;> simp [missing, directive, Ledger.turnTo]
  have begun := follow_cons pragma severity module ⟨.enterProgram, ancestors, scope⟩ visits {} {}
  rw [react_enter] at begun
  obtain ⟨after, follows, diagnostics⟩ :=
    follow_inner pragma severity module visits inner [] _ silent
  exact ⟨after, begun.trans follows, diagnostics⟩

theorem visits_eq_inner :
    ∃ inner, module.visits = (⟨.enterProgram, [], 0⟩ :: inner) ++ [⟨.exitProgram, [], 0⟩] ∧
      (∀ visit ∈ inner, visit.event.IsInner) ∧
      constructsAlong pragma module module.visits = constructsAlong pragma module inner := by
  refine ⟨_, rfl, visitsAlong_isInner _ _, ?_⟩
  simp [Module.visits, visits, constructsAlong, constructsAt]

/-- The whole run. -/
theorem follow_visits :
    ∃ after, Listener.follow module module.visits ([.ofEntry ⟨rule pragma, severity⟩], {}) =
        ([listener pragma severity
          (.having module (constructsAlong pragma module module.visits))], after) ∧
      after.diagnostics = (verdict module (constructsAlong pragma module module.visits)).map
        (·.entered info.name severity) := by
  obtain ⟨inner, split, isInner, same⟩ := visits_eq_inner pragma module
  obtain ⟨before, follows, said⟩ := follow_entered pragma severity module inner isInner [] 0
  obtain ⟨findings, reacts, decided⟩ :=
    react_exit pragma module [] 0 (constructsAlong pragma module inner)
  rw [same, split, follow_append, follows, follow_cons, reacts, decided]
  refine ⟨_, rfl, ?_⟩
  rw [Ledger.foldl_take_findings, List.map_append, ← said]
  rfl

/-- The run stopped at any moment: the record holds what the visits so far have come upon, and the
rule has reported as soon as something was to be said. -/
theorem follow_prefix (before rest : List Visit) (split : module.visits = before ++ rest) :
    ∃ analysis after,
      Listener.follow module before ([.ofEntry ⟨rule pragma, severity⟩], {}) =
        ([listener pragma severity analysis], after) ∧
      analysis.constructs = constructsAlong pragma module before ∧
      (analysis.hasReported = true ↔
        clientDirective? module.tree = none ∧ analysis.constructs ≠ []) := by
  have reported (found : List Construct) : (Analysis.having module found).hasReported = true ↔
      clientDirective? module.tree = none ∧ found ≠ [] := by
    simp [Analysis.having]
  obtain ⟨inner, whole, isInner, same⟩ := visits_eq_inner pragma module
  rcases List.eq_nil_or_concat rest with rfl | ⟨later, last, rfl⟩
  · -- Everything has been visited.
    obtain ⟨after, follows, _⟩ := follow_visits pragma severity module
    rw [List.append_nil] at split
    rw [← split]
    exact ⟨_, after, follows, rfl, reported _⟩
  · have shorter : before ++ later = ⟨.enterProgram, [], 0⟩ :: inner := by
      have eq := split.symm.trans whole
      rw [List.concat_eq_append, ← List.append_assoc] at eq
      exact (List.append_inj' eq rfl).1
    cases before with
    | nil => exact ⟨{}, {}, rfl, rfl, by simp⟩
    | cons first begun =>
      obtain ⟨rfl, begins⟩ := List.cons.inj shorter
      have beginsInner : ∀ visit ∈ begun, visit.event.IsInner := by
        intro visit member
        exact isInner visit (begins ▸ List.mem_append_left later member)
      obtain ⟨after, follows, _⟩ := follow_entered pragma severity module begun beginsInner [] 0
      exact ⟨_, after, follows, rfl, reported _⟩

/-- The diagnostics of a module that reads, when the rule is the only one. -/
theorem lintModule_eq_verdict {fileName source : String}
    (read : Module.read? fileName source = some module) :
    ∃ result, Registry.lintModule [⟨rule pragma, severity⟩] source fileName = .ok result ∧
      result.diagnostics = (verdict module (constructsAlong pragma module module.visits)).map
        (·.entered info.name severity) := by
  obtain ⟨after, follows, diagnostics⟩ := follow_visits pragma severity module
  refine ⟨_, by simp only [Registry.lintModule, read]; rfl, ?_⟩
  simpa only [Registry.inspect, List.map_cons, List.map_nil, follows] using diagnostics

/-- The diagnostics of a module are decided by its leading directive and the constructs recorded on
the tour. One diagnostic asks for the directive that is missing, and speaks of the first construct;
one asks to remove a directive that no construct needs; otherwise there is none. At any moment of
the tour the rule has reported exactly if the directive is missing and something has been
recorded. -/
theorem diagnostics_decided {fileName source : String}
    (read : Module.read? fileName source = some module) :
    ∃ result analysis ledger,
      Registry.lintModule [⟨rule pragma, severity⟩] source fileName = .ok result ∧
      Listener.follow module module.visits ([.ofEntry ⟨rule pragma, severity⟩], {}) =
        ([⟨⟨rule pragma, severity⟩, analysis⟩], ledger) ∧
      (∀ span, analysis.directive = some span ↔ LeadsWithDirective module.tree span) ∧
      result.diagnostics = (match analysis.directive, analysis.constructs with
        | none, first :: _ =>
          [{ rule := info.name
             messageId := first.kind.messageId
             severity := severity
             message := first.message
             span := first.span
             fix := some (insertDirective source (firstStatementStart module.tree)) }]
        | some directive, [] =>
          [{ rule := info.name
             messageId := "removeUseClient"
             severity := severity
             message := redundantMessage
             span := directive
             fix := some (.single "Remove the \"use client\" directive"
               (.delete directive.start directive.stop)) }]
        | _, _ => []) ∧
      (∀ diagnostic ∈ result.diagnostics,
        diagnostic.severity = severity ∧ diagnostic.rule = info.name) ∧
      ∀ before rest, module.visits = before ++ rest →
        ∃ analysis ledger,
          Listener.follow module before ([.ofEntry ⟨rule pragma, severity⟩], {}) =
            ([⟨⟨rule pragma, severity⟩, analysis⟩], ledger) ∧
          analysis.constructs = constructsAlong pragma module before ∧
          (analysis.hasReported = true ↔
            (¬∃ span, LeadsWithDirective module.tree span) ∧ analysis.constructs ≠ []) := by
  obtain ⟨result, linted, diagnostics⟩ := lintModule_eq_verdict pragma severity module read
  obtain ⟨after, follows, _⟩ := follow_visits pragma severity module
  have source_eq := (Module.read?_source read).2
  refine ⟨result, _, after, linted, follows, ?_, ?_, ?_, ?_⟩
  · intro span
    exact clientDirective?_eq_some_iff
  · rw [diagnostics, ← source_eq]
    cases directive : clientDirective? module.tree <;>
      cases found : constructsAlong pragma module module.visits <;>
        simp [verdict, Analysis.having, Analysis.ofProgram, directive, missingFinding,
          redundantFinding, redundantId, removeDirective, Finding.entered]
  · intro diagnostic member
    rw [diagnostics] at member
    obtain ⟨finding, _, rfl⟩ := List.mem_map.mp member
    exact ⟨rfl, rfl⟩
  · intro before rest split
    obtain ⟨analysis, ledger, begins, recorded, reported⟩ :=
      follow_prefix pragma severity module before rest split
    refine ⟨analysis, ledger, begins, recorded, ?_⟩
    have absent : clientDirective? module.tree = none ↔
        ¬∃ span, LeadsWithDirective module.tree span := by
      simp only [Option.eq_none_iff_forall_ne_some, ne_eq, clientDirective?_eq_some_iff, not_exists]
    rw [reported, absent]

end Run

/-- A component with a hook and a callback, linted with warnings. -/
theorem diagnostics_decided_component :
    ∃ module result analysis ledger first rest,
      Module.read? "page.jsx" "A=()=>\x7buseB();return <a onClick=\x7bf\x7d/>\x7d" = some module ∧
      Registry.lintModule [⟨rule "React", .warning⟩]
        "A=()=>\x7buseB();return <a onClick=\x7bf\x7d/>\x7d" "page.jsx" = .ok result ∧
      Listener.follow module module.visits ([.ofEntry ⟨rule "React", .warning⟩], {}) =
        ([⟨⟨rule "React", .warning⟩, analysis⟩], ledger) ∧
      analysis.directive = none ∧ analysis.constructs = first :: rest ∧
      result.diagnostics.map (fun diagnostic => (diagnostic.messageId, diagnostic.severity)) =
        [(first.kind.messageId, .warning)] := by
  obtain ⟨module, read, evaluated⟩ := (Option.any_eq_true _ _).mp (show
    (Module.read? "page.jsx" "A=()=>\x7buseB();return <a onClick=\x7bf\x7d/>\x7d").any (fun module =>
      ((clientDirective? module.tree).isNone ∧
        (constructsAlong "React" module module.visits).length = 2 : Bool)) = true by decide +kernel)
  obtain ⟨absent, two⟩ := of_decide_eq_true evaluated
  obtain ⟨result, analysis, ledger, linted, follows, _, diagnostics, _, _⟩ :=
    diagnostics_decided "React" .warning module read
  obtain ⟨after, ends, _⟩ := follow_visits "React" .warning module
  have state : analysis = .having module (constructsAlong "React" module module.visits) := by
    rw [ends] at follows
    cases follows
    rfl
  have directive : analysis.directive = none := by
    rw [state]
    exact Option.isNone_iff_eq_none.mp absent
  obtain ⟨first, rest, constructs⟩ : ∃ first rest, analysis.constructs = first :: rest := by
    rw [state]
    exact List.exists_cons_of_length_pos (show 0 < (constructsAlong _ _ _).length by omega)
  refine ⟨module, result, analysis, ledger, first, rest, read, linted, follows, directive, constructs,
    ?_⟩
  rw [diagnostics, directive, constructs]
  rfl

end UseClient

end ClientBoundary
