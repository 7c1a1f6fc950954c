import ClientBoundary.Proofs.PositionIndependence

/-! What the two fixes of the rule do to a module. Of the parser it is taken that a directive can be
put in front of a program, or taken away, without any other change to the tree than its place. Then
an inserted directive settles the module; a removed one settles it unless the next statement is the
directive once more. -/
namespace ClientBoundary

/-- An edit replaces what stands between its two ends. -/
theorem TextEdit.applyTo?_append (before removed after : List Char) (newText : String) :
    TextEdit.applyTo? ⟨Text.byteLength before, Text.byteLength before + Text.byteLength removed,
      newText⟩ (before ++ removed ++ after) = some (before ++ newText.toList ++ after) := by
  have start := Text.cut?_byteLength before (removed ++ after)
  have stop := Text.cut?_byteLength (before ++ removed) after
  rw [Text.byteLength_append] at stop
  have inside : Text.byteLength before ≤ Text.byteLength before + Text.byteLength removed ∧
      Text.byteLength before + Text.byteLength removed ≤
        Text.byteLength (before ++ removed ++ after) := by
    rw [Text.byteLength_append, Text.byteLength_append]
    omega
  rw [← List.append_assoc] at start
  unfold TextEdit.applyTo?
  rw [if_pos inside, start, stop]
  rfl

theorem Fix.applyTo?_single (message : String) (edit : TextEdit) (source : String) :
    (Fix.single message edit).applyTo? source =
      (edit.applyTo? source.toList).map String.ofList := by
  simp [Fix.applyTo?, Fix.single, TextEdit.applyAll?, TextEdit.fromTheEnd]

namespace UseClient

open Syntax

theorem insertDirective_applyTo? {source : String} {before after : List Char}
    (split : source.toList = before ++ after) :
    (insertDirective source (Text.byteLength before)).applyTo? source =
      some (String.ofList
        (before ++ (insertedText source.toList (Text.byteLength before)).toList ++ after)) := by
  have edit := TextEdit.applyTo?_append before [] after
    (insertedText source.toList (Text.byteLength before))
  rw [List.append_nil, ← split] at edit
  rw [insertDirective, Fix.applyTo?_single]
  exact congrArg (Option.map String.ofList) edit

theorem removeDirective_applyTo? {source : String} {before removed after : List Char}
    (split : source.toList = before ++ removed ++ after) {directive : Span}
    (start : Text.byteLength before = directive.start)
    (stop : Text.byteLength before + Text.byteLength removed = directive.stop) :
    (removeDirective directive).applyTo? source = some (String.ofList (before ++ after)) := by
  have edit := TextEdit.applyTo?_append before removed after ""
  rw [← split, start, ← start, stop] at edit
  rw [removeDirective, Fix.applyTo?_single, TextEdit.delete, ← start, edit]
  simp

/-- A program whose second statement is the client directive, at a span. -/
def RepeatsDirective (program : Node) (span : Span) : Prop :=
  ∃ first second rest, program.children = first :: second :: rest ∧
    second.kind = .directive directiveText ∧ second.span = span

/-- A file read with and without a directive in front of its first statement. The longer text is the
same program, moved back behind the directive, and no node of the program starts before the place of
the directive. -/
structure ReadsAlike (fileName : String) (before directive after : List Char) (span : Span)
    (program longer : Node) : Prop where
  short : parse? fileName (String.ofList (before ++ after)) = some program
  long : parse? fileName (String.ofList (before ++ directive ++ after)) = some longer
  led : Scope.LedBy ⟨.directive directiveText, span, [], .item, .plain⟩
    (Text.byteLength directive) program longer
  behind : StandsBehind (Text.byteLength before)
    (Module.ofProgram fileName (String.ofList (before ++ after)) program)

/-- The directive block can be inserted at the first statement of a file. -/
def StableUnderInsertion (fileName source : String) : Prop :=
  ∀ module, Module.read? fileName source = some module →
    ∃ before after span program longer,
      source.toList = before ++ after ∧
      Text.byteLength before = firstStatementStart module.tree ∧
      ReadsAlike fileName before
        (insertedText source.toList (Text.byteLength before)).toList after span program longer

/-- The leading directive of a file can be deleted. -/
def StableUnderRemoval (fileName source : String) : Prop :=
  ∀ module span, Module.read? fileName source = some module →
    clientDirective? module.tree = some span →
    ∃ before directive after program longer,
      source.toList = before ++ directive ++ after ∧
      Text.byteLength before = span.start ∧
      Text.byteLength before + Text.byteLength directive = span.stop ∧
      ReadsAlike fileName before directive after span program longer

theorem readsAlike_of_any {fileName : String} {before directive after : List Char} {span : Span}
    (evaluated : (parse? fileName (String.ofList (before ++ after))).any (fun program =>
      (parse? fileName (String.ofList (before ++ directive ++ after))).any fun longer =>
        (longer.children = ⟨.directive directiveText, span, [], .item, .plain⟩ ::
            program.children.map (Node.shift (Text.byteLength directive)) ∧
          StandsBehind (Text.byteLength before)
            (Module.ofProgram fileName (String.ofList (before ++ after)) program) : Bool)) = true) :
    ∃ program longer, ReadsAlike fileName before directive after span program longer := by
  obtain ⟨program, short, both⟩ := (Option.any_eq_true _ _).mp evaluated
  obtain ⟨longer, long, holds⟩ := (Option.any_eq_true _ _).mp both
  obtain ⟨children, behind⟩ := of_decide_eq_true holds
  exact ⟨program, longer, short, long, ⟨⟨_, rfl⟩, rfl, children⟩, behind⟩

theorem stableUnderInsertion_of_any {fileName source : String} {before after : List Char}
    {span : Span} (split : source.toList = before ++ after)
    (starts : (Module.read? fileName source).all
      (firstStatementStart ·.tree = Text.byteLength before) = true)
    (alike : ∃ program longer, ReadsAlike fileName before
      (insertedText source.toList (Text.byteLength before)).toList after span program longer) :
    StableUnderInsertion fileName source := by
  intro module read
  obtain ⟨program, longer, alike⟩ := alike
  rw [read, Option.all_some, decide_eq_true_eq] at starts
  exact ⟨before, after, span, program, longer, split, starts.symm, alike⟩

theorem stableUnderRemoval_of_any {fileName source : String} {before directive after : List Char}
    {span : Span} (split : source.toList = before ++ directive ++ after)
    (leads : (Module.read? fileName source).all (clientDirective? ·.tree = some span) = true)
    (start : Text.byteLength before = span.start)
    (stop : Text.byteLength before + Text.byteLength directive = span.stop)
    (alike : ∃ program longer, ReadsAlike fileName before directive after span program longer) :
    StableUnderRemoval fileName source := by
  intro module found read isFound
  obtain ⟨program, longer, alike⟩ := alike
  rw [read, Option.all_some, decide_eq_true_eq, isFound] at leads
  cases leads
  exact ⟨before, directive, after, program, longer, split, start, stop, alike⟩

namespace ReadsAlike

variable {fileName : String} {before directive after : List Char} {span : Span}
  {program longer : Node} (alike : ReadsAlike fileName before directive after span program longer)

include alike

theorem read_short : Module.read? fileName (String.ofList (before ++ after)) =
    some (Module.ofProgram fileName (String.ofList (before ++ after)) program) := by
  rw [Module.read?, alike.short, Option.map_some]

theorem read_long : Module.read? fileName (String.ofList (before ++ directive ++ after)) =
    some (Module.ofProgram fileName (String.ofList (before ++ directive ++ after)) longer) := by
  rw [Module.read?, alike.long, Option.map_some]

/-- The tree of the longer text, scopes and free references included. -/
theorem children_long :
    (Module.ofProgram fileName (String.ofList (before ++ directive ++ after)) longer).tree.children =
      ⟨.directive directiveText, span, [], .item, .plain⟩ ::
        (Module.ofProgram fileName (String.ofList (before ++ after)) program).tree.children.map
          (Node.shift (Text.byteLength directive)) :=
  (Scope.analyze_led (parse?_isProgram alike.short) (parse?_isProgram alike.long) alike.led).1

theorem clientDirective?_long :
    clientDirective? (Module.ofProgram fileName
      (String.ofList (before ++ directive ++ after)) longer).tree = some span :=
  clientDirective?_eq_some_iff.mpr ⟨_, _, alike.children_long, rfl, rfl⟩

/-- The shorter text starts with the directive exactly if the longer one repeats it. -/
theorem clientDirective?_short (found : Span) :
    clientDirective? (Module.ofProgram fileName (String.ofList (before ++ after)) program).tree =
        some found ↔
      RepeatsDirective (Module.ofProgram fileName
        (String.ofList (before ++ directive ++ after)) longer).tree
        (found.shift (Text.byteLength directive)) := by
  rw [clientDirective?_eq_some_iff, LeadsWithDirective, RepeatsDirective, alike.children_long]
  constructor
  · rintro ⟨first, rest, children, kind, rfl⟩
    refine ⟨_, first.shift _, rest.map (Node.shift _), by rw [children, List.map_cons], ?_, ?_⟩
    · rw [Node.shift_kind, kind]
    · rw [Node.shift_span]
  · rintro ⟨_, second, rest, children, kind, span⟩
    obtain ⟨first, others, eq, rfl, _⟩ := List.map_eq_cons_iff.mp (List.cons.inj children).2
    rw [Node.shift_kind] at kind
    rw [Node.shift_span, Span.shift_inj] at span
    exact ⟨first, others, eq, kind, span⟩

theorem repeats_shift {found : Span}
    (repeats : RepeatsDirective (Module.ofProgram fileName
      (String.ofList (before ++ directive ++ after)) longer).tree found) :
    ∃ short : Span, found = short.shift (Text.byteLength directive) := by
  obtain ⟨_, second, rest, children, _, rfl⟩ := repeats
  rw [alike.children_long] at children
  obtain ⟨first, _, _, rfl, _⟩ := List.map_eq_cons_iff.mp (List.cons.inj children).2
  exact ⟨first.span, Node.shift_span _ first⟩

/-- Both texts have the same constructs, moved back in the longer one. -/
theorem constructs (pragma : String) :
    let short := Module.ofProgram fileName (String.ofList (before ++ after)) program
    let long := Module.ofProgram fileName (String.ofList (before ++ directive ++ after)) longer
    constructsAlong pragma long long.visits =
      (constructsAlong pragma short short.visits).map
        (Construct.shift (Text.byteLength directive)) := by
  intro short long
  rw [constructsAlong_visits pragma long (Module.read?_wellScoped alike.read_long),
    constructsAlong_visits pragma short (Module.read?_wellScoped alike.read_short)]
  exact recorded_of_led pragma fileName (parse?_isProgram alike.short)
    (parse?_isProgram alike.long) alike.led alike.behind

end ReadsAlike

section Lint

variable {pragma fileName source : String} {severity : Severity} {result : LintResult}
  {diagnostic : Diagnostic}

def Finishes (pragma : String) (severity : Severity) (module : Module) (analysis : Analysis) : Prop :=
  ∃ ledger, Listener.follow module module.visits ([.ofEntry ⟨rule pragma, severity⟩], {}) =
    ([⟨⟨rule pragma, severity⟩, analysis⟩], ledger)

theorem finishes_having (pragma : String) (severity : Severity) (module : Module) :
    Finishes pragma severity module
      (.having module (constructsAlong pragma module module.visits)) := by
  obtain ⟨ledger, follows, _⟩ := follow_visits pragma severity module
  exact ⟨ledger, follows⟩

/-- A module that has been linted has been read, and its diagnostics are the verdict on it. -/
theorem lintModule_ok
    (linted : Registry.lintModule [⟨rule pragma, severity⟩] source fileName = .ok result) :
    ∃ module, Module.read? fileName source = some module ∧
      result.diagnostics = (verdict module (constructsAlong pragma module module.visits)).map
        (·.entered info.name severity) := by
  cases read : Module.read? fileName source with
  | none =>
    simp only [Registry.lintModule, read] at linted
    cases linted
  | some module =>
    obtain ⟨other, lintedOther, diagnostics⟩ := lintModule_eq_verdict pragma severity module read
    rw [linted] at lintedOther
    cases lintedOther
    exact ⟨module, rfl, diagnostics⟩

theorem exists_diagnostic_of_any {outcome : Except LintError LintResult} {test : Diagnostic → Bool}
    (evaluated : outcome.toOption.any (·.diagnostics.any test) = true) :
    ∃ result, outcome = .ok result ∧ ∃ diagnostic ∈ result.diagnostics, test diagnostic = true := by
  cases outcome with
  | error error => cases evaluated
  | ok result => exact ⟨result, rfl, List.any_eq_true.mp evaluated⟩

theorem messageId_ne_redundantId (kind : ConstructKind) : kind.messageId ≠ redundantId := by
  cases kind <;> decide

theorem missing_of_mem {module : Module} {found : List Construct}
    (member : diagnostic ∈ (verdict module found).map (·.entered info.name severity))
    {kind : ConstructKind} (adds : diagnostic.messageId = kind.messageId) :
    found ≠ [] ∧
      diagnostic.fix = some (insertDirective module.source (firstStatementStart module.tree)) := by
  obtain ⟨finding, said, rfl⟩ := List.mem_map.mp member
  unfold verdict at said
  split at said
  · obtain rfl := List.mem_singleton.mp said
    exact ⟨List.cons_ne_nil _ _, rfl⟩
  · obtain rfl := List.mem_singleton.mp said
    exact absurd adds.symm (messageId_ne_redundantId kind)
  · cases said

theorem redundant_of_mem {module : Module} {found : List Construct}
    (member : diagnostic ∈ (verdict module found).map (·.entered info.name severity))
    (removes : diagnostic.messageId = redundantId) :
    found = [] ∧ clientDirective? module.tree = some diagnostic.span ∧
      diagnostic.fix = some (removeDirective diagnostic.span) := by
  obtain ⟨finding, said, rfl⟩ := List.mem_map.mp member
  unfold verdict at said
  split at said
  · obtain rfl := List.mem_singleton.mp said
    exact absurd removes (messageId_ne_redundantId _)
  · next directive =>
    obtain rfl := List.mem_singleton.mp said
    exact ⟨rfl, directive, rfl⟩
  · cases said

theorem verdict_of_directive {module : Module} {span : Span}
    (directive : clientDirective? module.tree = some span) {found : List Construct}
    (needed : found ≠ []) : verdict module found = [] := by
  cases found with
  | nil => exact absurd rfl needed
  | cons first rest => simp only [verdict, directive]

/-- The fix that adds the directive settles a module. The constructs recorded for the fixed text are
the ones from before, moved back by the length of the inserted text, and there is nothing more to
say. -/
theorem inserted_directive_settles
    (linted : Registry.lintModule [⟨rule pragma, severity⟩] source fileName = .ok result)
    (member : diagnostic ∈ result.diagnostics)
    {kind : ConstructKind} (adds : diagnostic.messageId = kind.messageId)
    (stable : StableUnderInsertion fileName source) :
    ∃ fix fixed module fixedModule analysis fixedAnalysis fixedResult,
      diagnostic.fix = some fix ∧ fix.applyTo? source = some fixed ∧
      Module.read? fileName source = some module ∧
      Module.read? fileName fixed = some fixedModule ∧
      Finishes pragma severity module analysis ∧
      Finishes pragma severity fixedModule fixedAnalysis ∧
      fixedAnalysis.constructs = analysis.constructs.map (Construct.shift (Text.byteLength
        (insertedText source.toList (firstStatementStart module.tree)).toList)) ∧
      fixedAnalysis.hasDirective = true ∧
      Registry.lintModule [⟨rule pragma, severity⟩] fixed fileName = .ok fixedResult ∧
      fixedResult.diagnostics = [] := by
  obtain ⟨module, read, diagnostics⟩ := lintModule_ok linted
  rw [diagnostics] at member
  obtain ⟨found, fix⟩ := missing_of_mem member adds
  obtain ⟨before, after, span, program, longer, split, place, alike⟩ := stable module read
  obtain rfl : source = String.ofList (before ++ after) := by rw [← split, String.ofList_toList]
  obtain rfl := Option.some.inj (read.symm.trans alike.read_short)
  have applied := insertDirective_applyTo? split
  have constructs := alike.constructs pragma
  have directive := alike.clientDirective?_long
  obtain ⟨fixedResult, fixedLinted, fixedDiagnostics⟩ :=
    lintModule_eq_verdict pragma severity _ alike.read_long
  dsimp only at constructs
  rw [constructs, verdict_of_directive directive (mt List.map_eq_nil_iff.mp found)]
    at fixedDiagnostics
  refine ⟨_, _, _, _, _, _, fixedResult, fix, ?_, read, alike.read_long, finishes_having ..,
    finishes_having .., ?_, ?_, fixedLinted, fixedDiagnostics⟩
  · rw [← place]
    exact applied
  · rw [← place]
    exact constructs
  · rw [Analysis.hasDirective, Analysis.having, Analysis.ofProgram, directive]
    rfl

theorem verdict_of_no_construct (module : Module) :
    verdict module [] = ((clientDirective? module.tree).map redundantFinding).toList := by
  cases directive : clientDirective? module.tree <;> simp only [verdict, directive] <;> rfl

/-- A component with a hook, which asks for the directive. -/
theorem inserted_directive_settles_component :
    ∃ result diagnostic fix fixed fixedResult,
      Registry.lintModule [⟨rule "React", .error⟩]
        "//c\nA=()=>\x7buseB();return <a onClick=\x7bf\x7d/>\x7d" "page.jsx" = .ok result ∧
      diagnostic ∈ result.diagnostics ∧
      diagnostic.messageId = ConstructKind.hook.messageId ∧
      diagnostic.fix = some fix ∧
      fix.applyTo? "//c\nA=()=>\x7buseB();return <a onClick=\x7bf\x7d/>\x7d" = some fixed ∧
      Registry.lintModule [⟨rule "React", .error⟩] fixed "page.jsx" = .ok fixedResult ∧
      fixedResult.diagnostics = [] := by
  obtain ⟨result, linted, diagnostic, member, adds⟩ := exists_diagnostic_of_any (show
    (Registry.lintModule [⟨rule "React", .error⟩]
      "//c\nA=()=>\x7buseB();return <a onClick=\x7bf\x7d/>\x7d" "page.jsx").toOption.any
        (·.diagnostics.any (·.messageId = ConstructKind.hook.messageId)) = true by decide +kernel)
  have stable : StableUnderInsertion "page.jsx"
      "//c\nA=()=>\x7buseB();return <a onClick=\x7bf\x7d/>\x7d" :=
    @stableUnderInsertion_of_any _ _ "//c\n".toList
      "A=()=>\x7buseB();return <a onClick=\x7bf\x7d/>\x7d".toList ⟨5, 18⟩ (by decide +kernel)
      (by decide +kernel) (readsAlike_of_any (by decide +kernel))
  obtain ⟨fix, fixed, _, _, _, _, fixedResult, isFix, applied, _, _, _, _, _, _, fixedLinted,
    settled⟩ := inserted_directive_settles linted member (of_decide_eq_true adds) stable
  exact ⟨result, diagnostic, fix, fixed, fixedResult, linted, member, of_decide_eq_true adds, isFix,
    applied, fixedLinted, settled⟩

/-- The fix that removes the directive leaves a module without constructs. If the next statement is
the directive once more, it is now the leading one, and is reported in turn; otherwise, and only
then, the module is settled. -/
theorem removed_directive_exposes_next
    (linted : Registry.lintModule [⟨rule pragma, severity⟩] source fileName = .ok result)
    (member : diagnostic ∈ result.diagnostics) (removes : diagnostic.messageId = "removeUseClient")
    (stable : StableUnderRemoval fileName source) :
    ∃ fix fixed module fixedModule analysis fixedResult,
      diagnostic.fix = some fix ∧ fix.applyTo? source = some fixed ∧
      Module.read? fileName source = some module ∧
      Module.read? fileName fixed = some fixedModule ∧
      Finishes pragma severity fixedModule analysis ∧
      Registry.lintModule [⟨rule pragma, severity⟩] fixed fileName = .ok fixedResult ∧
      analysis.constructs = [] ∧
      (analysis.hasDirective = false ∧ fixedResult.diagnostics = [] ↔
        ¬∃ span, RepeatsDirective module.tree span) ∧
      ∀ span, RepeatsDirective module.tree
          (span.shift (diagnostic.span.stop - diagnostic.span.start)) →
        analysis.directive = some span ∧
        fixedResult.diagnostics = [(redundantFinding span).entered info.name severity] := by
  obtain ⟨module, read, diagnostics⟩ := lintModule_ok linted
  rw [diagnostics] at member
  obtain ⟨found, directive, fix⟩ := redundant_of_mem member removes
  obtain ⟨before, removed, after, program, longer, split, start, stop, alike⟩ :=
    stable module diagnostic.span read directive
  obtain rfl : source = String.ofList (before ++ removed ++ after) := by
    rw [← split, String.ofList_toList]
  obtain rfl := Option.some.inj (read.symm.trans alike.read_long)
  have bytes : diagnostic.span.stop - diagnostic.span.start = Text.byteLength removed := by omega
  have constructs := alike.constructs pragma
  dsimp only at constructs
  rw [found, eq_comm, List.map_eq_nil_iff] at constructs
  obtain ⟨fixedResult, fixedLinted, fixedDiagnostics⟩ :=
    lintModule_eq_verdict pragma severity _ alike.read_short
  have finishes := finishes_having pragma severity
    (Module.ofProgram fileName (String.ofList (before ++ after)) program)
  rw [constructs] at finishes fixedDiagnostics
  rw [verdict_of_no_construct] at fixedDiagnostics
  refine ⟨_, _, _, _, _, fixedResult, fix, removeDirective_applyTo? split start stop, read,
    alike.read_short, finishes, fixedLinted, rfl, ?_, ?_⟩
  · cases next : clientDirective?
        (Module.ofProgram fileName (String.ofList (before ++ after)) program).tree with
    | none =>
      rw [next] at fixedDiagnostics
      refine ⟨fun _ => ?_, fun _ => ⟨congrArg Option.isSome next, fixedDiagnostics⟩⟩
      rintro ⟨span, repeats⟩
      obtain ⟨short, rfl⟩ := alike.repeats_shift repeats
      rw [(alike.clientDirective?_short short).mpr repeats] at next
      cases next
    | some span =>
      refine ⟨fun settled => ?_, fun none => ?_⟩
      · have absent : (some span).isSome = false :=
          (congrArg Option.isSome next).symm.trans settled.1
        cases absent
      · exact absurd ⟨_, (alike.clientDirective?_short span).mp next⟩ none
  · intro span repeats
    rw [bytes] at repeats
    have next := (alike.clientDirective?_short span).mpr repeats
    rw [next] at fixedDiagnostics
    exact ⟨next, fixedDiagnostics⟩

/-- A directive in front of a single statement that needs none. -/
theorem removed_directive_exposes_next_single :
    ∃ result diagnostic fix fixed fixedModule analysis fixedResult,
      Registry.lintModule [⟨rule "React", .warning⟩] "'use client';\na" "page.jsx" = .ok result ∧
      diagnostic ∈ result.diagnostics ∧ diagnostic.messageId = "removeUseClient" ∧
      diagnostic.fix = some fix ∧ fix.applyTo? "'use client';\na" = some fixed ∧
      Module.read? "page.jsx" fixed = some fixedModule ∧
      Finishes "React" .warning fixedModule analysis ∧
      Registry.lintModule [⟨rule "React", .warning⟩] fixed "page.jsx" = .ok fixedResult ∧
      analysis.hasDirective = false ∧ fixedResult.diagnostics = [] := by
  obtain ⟨result, linted, diagnostic, member, removes⟩ := exists_diagnostic_of_any (show
    (Registry.lintModule [⟨rule "React", .warning⟩] "'use client';\na" "page.jsx").toOption.any
      (·.diagnostics.any (·.messageId = "removeUseClient")) = true by decide +kernel)
  have stable : StableUnderRemoval "page.jsx" "'use client';\na" :=
    @stableUnderRemoval_of_any _ _ [] "'use client';".toList "\na".toList ⟨0, 13⟩
      (by decide +kernel) (by decide +kernel) rfl (by decide +kernel)
      (readsAlike_of_any (by decide +kernel))
  obtain ⟨fix, fixed, module, fixedModule, analysis, fixedResult, isFix, applied, read, fixedRead,
    finishes, fixedLinted, _, settled, _⟩ :=
    removed_directive_exposes_next linted member (of_decide_eq_true removes) stable
  have single : (Module.read? "page.jsx" "'use client';\na").all
      (·.tree.children.tail.all (·.kind ≠ .directive directiveText)) = true := by decide +kernel
  rw [read, Option.all_some] at single
  have once : ¬∃ span, RepeatsDirective module.tree span := by
    rintro ⟨span, first, second, rest, children, kind, _⟩
    simp [children, kind] at single
  exact ⟨result, diagnostic, fix, fixed, fixedModule, analysis, fixedResult, linted, member,
    of_decide_eq_true removes, isFix, applied, fixedRead, finishes, fixedLinted, settled.mpr once⟩

/-- Of two directives the second one is left, and is reported again. -/
theorem removed_directive_leaves_second :
    StableUnderRemoval "page.jsx" "'use client';\n'use client';\na" ∧
    ∃ result diagnostic fix fixed fixedModule analysis fixedResult,
      Registry.lintModule [⟨rule "React", .error⟩] "'use client';\n'use client';\na" "page.jsx" =
        .ok result ∧
      diagnostic ∈ result.diagnostics ∧ diagnostic.messageId = "removeUseClient" ∧
      diagnostic.fix = some fix ∧
      fix.applyTo? "'use client';\n'use client';\na" = some fixed ∧
      Module.read? "page.jsx" fixed = some fixedModule ∧
      Finishes "React" .error fixedModule analysis ∧
      Registry.lintModule [⟨rule "React", .error⟩] fixed "page.jsx" = .ok fixedResult ∧
      analysis.hasDirective = true ∧ fixedResult.diagnostics ≠ [] := by
  have split : "'use client';\n'use client';\na".toList =
      [] ++ "'use client';".toList ++ "\n'use client';\na".toList := by decide +kernel
  have stop : Text.byteLength [] + Text.byteLength "'use client';".toList = 13 := by decide +kernel
  have stable := @stableUnderRemoval_of_any "page.jsx" _ _ _ _ ⟨0, 13⟩ split (by decide +kernel) rfl
    stop (readsAlike_of_any (by decide +kernel))
  obtain ⟨result, linted, diagnostic, member, asked⟩ := exists_diagnostic_of_any (show
    (Registry.lintModule [⟨rule "React", .error⟩] "'use client';\n'use client';\na"
      "page.jsx").toOption.any (·.diagnostics.any fun diagnostic =>
        diagnostic.messageId = "removeUseClient" ∧
          diagnostic.fix = some (removeDirective ⟨0, 13⟩)) = true by decide +kernel)
  obtain ⟨removes, fix⟩ := of_decide_eq_true asked
  have applied := @removeDirective_applyTo? _ _ _ _ split ⟨0, 13⟩ rfl stop
  obtain ⟨fixedModule, read, directive⟩ := (Option.any_eq_true _ _).mp (show
    (Module.read? "page.jsx" (String.ofList ([] ++ "\n'use client';\na".toList))).any
      (clientDirective? ·.tree |>.isSome) = true by decide +kernel)
  obtain ⟨fixedResult, fixedLinted, again, isAgain, _⟩ := exists_diagnostic_of_any (show
    (Registry.lintModule [⟨rule "React", .error⟩]
      (String.ofList ([] ++ "\n'use client';\na".toList)) "page.jsx").toOption.any
        (·.diagnostics.any fun _ => true) = true by decide +kernel)
  exact ⟨stable, result, diagnostic, _, _, fixedModule, _, fixedResult, linted, member, removes, fix,
    applied, read, finishes_having .., fixedLinted, directive, List.ne_nil_of_mem isAgain⟩

end Lint

end UseClient

end ClientBoundary
