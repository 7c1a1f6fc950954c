import ClientBoundary.Proofs.RunTotals

/-! The counts in the JSON report. An entry of the report states how many errors and warnings its
file has, and how many of them can be fixed, next to the messages themselves. -/
namespace ClientBoundary

namespace Json

def member? (key : String) : Json → Option Json
  | .object members => (members.find? (·.1 = key)).map (·.2)
  | _ => none

def items : Json → List Json
  | .array items => items
  | _ => []

def integer? : Json → Option Int
  | .integer value => some value
  | _ => none

end Json

namespace Report

def stated? (entry : Json) (key : String) : Option Int :=
  (entry.member? key).bind Json.integer?

def messages (entry : Json) : List Json := ((entry.member? "messages").map Json.items).getD []

def hasSeverity (severity : Int) (message : Json) : Bool :=
  (message.member? "severity").bind Json.integer? = some severity

def messageCount (severity : Int) (entry : Json) : Nat :=
  (messages entry).countP (hasSeverity severity)

def fixableMessageCount (severity : Int) (entry : Json) : Nat :=
  (messages entry).countP fun message =>
    hasSeverity severity message && (message.member? "fix").isSome

theorem hasSeverity_messageJson (severity : Severity) (index : LineIndex) (diagnostic : Diagnostic) :
    hasSeverity (severityNumber severity) (messageJson index diagnostic) =
      decide (diagnostic.severity = severity) := by
  cases severity <;> cases other : diagnostic.severity <;>
    simp [hasSeverity, messageJson, Json.member?, Json.integer?, severityNumber, other]

theorem fix_messageJson (index : LineIndex) (diagnostic : Diagnostic) :
    ((messageJson index diagnostic).member? "fix").isSome = diagnostic.fix.isSome := by
  cases isFix : diagnostic.fix <;> simp [messageJson, Json.member?, isFix]

theorem messages_resultJson (sources : Sources) (result : LintResult) :
    messages (resultJson sources result) = result.diagnostics.map
      (messageJson (LineIndex.ofText (sources.text result.fileName).toList)) := by
  simp [messages, resultJson, Json.member?, Json.items]

theorem messageCount_resultJson (severity : Severity) (sources : Sources) (result : LintResult) :
    messageCount (severityNumber severity) (resultJson sources result) =
      severity.count result.diagnostics := by
  rw [messageCount, messages_resultJson, List.countP_map, Severity.count]
  exact List.countP_congr fun diagnostic _ => by
    rw [Function.comp_apply, hasSeverity_messageJson]

theorem fixableMessageCount_resultJson (severity : Severity) (sources : Sources)
    (result : LintResult) :
    fixableMessageCount (severityNumber severity) (resultJson sources result) =
      fixableCount severity result.diagnostics := by
  rw [fixableMessageCount, messages_resultJson, List.countP_map, fixableCount, Severity.count,
    List.countP_filter]
  exact List.countP_congr fun diagnostic _ => by
    rw [Function.comp_apply, hasSeverity_messageJson, fix_messageJson]

theorem stated_resultJson (sources : Sources) (result : LintResult) :
    let entry := resultJson sources result
    stated? entry "errorCount" = some (result.errors : Int) ∧
      stated? entry "warningCount" = some (result.warnings : Int) ∧
      stated? entry "fixableErrorCount" = some (fixableCount .error result.diagnostics : Int) ∧
      stated? entry "fixableWarningCount" = some (fixableCount .warning result.diagnostics : Int) := by
  simp [stated?, resultJson, Json.member?, Json.integer?]

end Report

namespace Cli

/-- What is reported was found by linting the text that it is reported with. -/
def Found (registry : Registry) (reported : String × LintResult) : Prop :=
  registry.lintModule reported.1 reported.2.fileName = .ok reported.2

theorem found_of_toOption {registry : Registry} {source path : String}
    {reported : String × LintResult}
    (linted : (registry.lintModule source path).toOption.map (source, ·) = some reported) :
    Found registry reported := by
  cases result : registry.lintModule source path with
  | error cause => simp [result, Except.toOption] at linted
  | ok result' =>
    obtain rfl : (source, result') = reported := by simpa [result, Except.toOption] using linted
    rw [Found, (Registry.lintModule_balanced result).1, result]

theorem lintFile_found (registry : Registry) (fix : Bool) (tree : FileTree) (path : String) :
    ∀ reported ∈ (lintFile registry fix tree path).reported, Found registry reported := by
  intro reported
  have comes := lintFile_comes registry fix tree path
  generalize lintFile registry fix tree path = outcome at comes
  cases comes with
  | unreadable unread => simp [FileOutcome.reported]
  | unfixable read asked fails => simp [FileOutcome.reported, Except.toOption]
  | kept read settled => exact found_of_toOption
  | written read asked fixes changed writes => exact found_of_toOption
  | unwritable read asked fixes changed refused => exact found_of_toOption

theorem foldl_add_found (registry : Registry) (fix : Bool) (paths : List String)
    {progress : Progress} (found : ∀ reported ∈ progress.results, Found registry reported) :
    ∀ reported ∈ (paths.foldl (Progress.add registry fix) progress).results,
      Found registry reported := by
  induction paths generalizing progress with
  | nil => exact found
  | cons path rest ih =>
    refine ih fun reported member => ?_
    rw [Progress.add_eq, List.mem_append, Option.mem_toList] at member
    rcases member with before | now
    · exact found reported before
    · exact lintFile_found registry fix progress.tree path reported now

/-- Shown quietly, a result keeps its errors and loses its warnings. -/
theorem count_shownResult (severity : Severity) (quiet : Bool) (result : LintResult) :
    severity.count (shownResult quiet result).diagnostics =
      if quiet = true ∧ severity = .warning then 0 else severity.count result.diagnostics := by
  cases quiet with
  | false => rfl
  | true =>
    simp only [shownResult, Severity.count, if_true, List.countP_filter]
    cases severity with
    | error => simp
    | warning =>
      rw [if_pos ⟨trivial, rfl⟩, List.countP_eq_zero]
      intro diagnostic _ both
      obtain ⟨isWarning, isError⟩ := Bool.and_eq_true_iff.mp both
      cases (of_decide_eq_true isWarning).symm.trans (of_decide_eq_true isError)

theorem shownResult_counts (quiet : Bool) (result : LintResult) :
    (shownResult quiet result).errors = result.errors ∧
      (shownResult quiet result).warnings = result.warnings := by
  cases quiet <;> exact ⟨rfl, rfl⟩

def sourcesOf (results : List (String × LintResult)) : Report.Sources :=
  results.map fun (source, result) => (result.fileName, source)

def entryOf (options : Options) (results : List (String × LintResult))
    (reported : String × LintResult) : Json :=
  Report.resultJson (sourcesOf results) (shownResult options.quiet reported.2)

theorem reportOf_json {options : Options} (json : options.format = .json)
    (results : List (String × LintResult)) :
    reportOf options results = (Json.array (results.map (entryOf options results))).pretty := by
  rw [reportOf, json, Report.render, Report.json, List.map_map]
  rfl

theorem lint_json (folder : String) (verbose : Bool) {options : Options} (tree : FileTree)
    (json : options.format = .json) :
    let results := (options.progress folder tree).results
    (lint folder verbose options tree).output =
      if Files.collect tree options.patterns = [] then ""
      else (Json.array (results.map (entryOf options results))).pretty := by
  rw [lint_output, Options.printed, reportOf_json json]
  simp [json]

/-- The counts in the JSON report. If there are files at all, there is one entry for each that was
linted. It states as many errors, fixable errors and fixable warnings as it has messages of the
kind. The warnings that it states are all those that were found; these are as many as it has
messages of the kind unless the run is quiet and some were found, for then they are not among the
messages. -/
theorem stated_counts (folder : String) (verbose : Bool) {options : Options} (tree : FileTree)
    (json : options.format = .json) :
    let results := (options.progress folder tree).results
    ((lint folder verbose options tree).output =
      if Files.collect tree options.patterns = [] then ""
      else (Json.array (results.map (entryOf options results))).pretty) ∧
    ∀ reported ∈ results,
      let entry := entryOf options results reported
      Found (options.registry folder tree) reported ∧
      Report.stated? entry "errorCount" = some (Report.messageCount 2 entry : Int) ∧
      Report.stated? entry "fixableErrorCount" = some (Report.fixableMessageCount 2 entry : Int) ∧
      Report.stated? entry "fixableWarningCount" = some (Report.fixableMessageCount 1 entry : Int) ∧
      Report.stated? entry "warningCount" =
        some (Severity.warning.count reported.2.diagnostics : Int) ∧
      (Report.stated? entry "warningCount" = some (Report.messageCount 1 entry : Int) ↔
        options.quiet = false ∨ Severity.warning.count reported.2.diagnostics = 0) := by
  intro results
  refine ⟨lint_json folder verbose tree json, fun reported member => ?_⟩
  have found := foldl_add_found (options.registry folder tree) options.fix
    (Files.collect tree options.patterns) (by simp) reported member
  obtain ⟨_, errors, warnings⟩ := Registry.lintModule_balanced found
  obtain ⟨keepsErrors, keepsWarnings⟩ := shownResult_counts options.quiet reported.2
  obtain ⟨statedErrors, statedWarnings, fixableErrors, fixableWarnings⟩ :=
    Report.stated_resultJson (sourcesOf results) (shownResult options.quiet reported.2)
  have messages (severity : Severity) := Report.messageCount_resultJson severity
    (sourcesOf results) (shownResult options.quiet reported.2)
  have fixable (severity : Severity) := Report.fixableMessageCount_resultJson severity
    (sourcesOf results) (shownResult options.quiet reported.2)
  have errorMessages := (messages .error).trans (count_shownResult .error _ _)
  have warningMessages := (messages .warning).trans (count_shownResult .warning _ _)
  rw [keepsErrors, errors] at statedErrors
  rw [keepsWarnings, warnings] at statedWarnings
  simp only [reduceCtorEq, and_false, if_false] at errorMessages
  simp only [and_true] at warningMessages
  -- Only for warnings are the statement and the messages counted in different lists.
  refine ⟨found, ?_, ?_, ?_, statedWarnings, ?_⟩
  · exact statedErrors.trans (congrArg (some ∘ Nat.cast) errorMessages.symm)
  · exact fixableErrors.trans (congrArg (some ∘ Nat.cast) (fixable .error).symm)
  · exact fixableWarnings.trans (congrArg (some ∘ Nat.cast) (fixable .warning).symm)
  · have stated : Report.stated? (entryOf options results reported) "warningCount" = _ :=
      statedWarnings
    have shown : Report.messageCount 1 (entryOf options results reported) = _ := warningMessages
    rw [stated, shown]
    cases options.quiet <;> simp

theorem collect_singleton {tree : FileTree} {pattern path : String}
    (one : Files.expand tree pattern = [path]) : Files.collect tree [pattern] = [path] := by
  simp [Files.collect, one, Files.withoutRepeats]

/-- A run over one file with a warning, which is stated and shown. -/
theorem stated_counts_warning :
    let tree := FileTree.folder [("a.jsx", .file ⟨.text "window.a", true⟩),
      ("rsc-lint.config.json", .file ⟨.text
        "\x7b\"rules\":\x7b\"react-server-components/use-client\":\"warn\"\x7d\x7d", true⟩)]
    let options : Options := { patterns := ["a.jsx"], format := .json }
    let results := (options.progress "" tree).results
    (lint "" false options tree).output =
        (Json.array (results.map (entryOf options results))).pretty ∧
      ∃ reported ∈ results, let entry := entryOf options results reported
        Report.messageCount 1 entry = 1 ∧ Report.stated? entry "warningCount" = some 1 := by
  intro tree options results
  have paths : Files.collect tree options.patterns = ["a.jsx"] :=
    collect_singleton (by decide +kernel)
  obtain ⟨output, agrees⟩ := @stated_counts "" false options tree rfl
  rw [if_neg (by simp [paths])] at output
  have evaluated : (lintAll (options.registry "" tree) false tree ["a.jsx"]).results.map
      (fun reported => Severity.warning.count reported.2.diagnostics) = [1] := by decide +kernel
  have one : results.map (fun reported => Severity.warning.count reported.2.diagnostics) = [1] := by
    rw [← evaluated, ← paths]
    rfl
  obtain ⟨reported, rest, isFirst, count, _⟩ := List.map_eq_cons_iff.mp one
  have member : reported ∈ results := by simp [isFirst]
  obtain ⟨_, _, _, _, stated, shown⟩ := agrees reported member
  have states : Report.stated? (entryOf options results reported) "warningCount" = some 1 := by
    rw [stated, count]
    rfl
  have same : ((1 : Nat) : Int) = Report.messageCount 1 (entryOf options results reported) :=
    Option.some.inj (states.symm.trans (shown.mpr (.inl rfl)))
  exact ⟨output, reported, member, (Int.ofNat.inj same).symm, states⟩

/-- The same run quietly: the warning is stated but not shown. -/
theorem quiet_report_miscounts :
    let tree := FileTree.folder [("a.jsx", .file ⟨.text "window.a", true⟩),
      ("rsc-lint.config.json", .file ⟨.text
        "\x7b\"rules\":\x7b\"react-server-components/use-client\":\"warn\"\x7d\x7d", true⟩)]
    let options : Options := { patterns := ["a.jsx"], format := .json, quiet := true }
    let results := (options.progress "" tree).results
    let entries := results.map (entryOf options results)
    (lint "" false options tree).output = (Json.array entries).pretty ∧
      entries.map (Report.stated? · "warningCount") = [some 1] ∧
      entries.map (Report.messageCount 1) = [0] := by
  intro tree options results entries
  have paths : Files.collect tree options.patterns = ["a.jsx"] :=
    collect_singleton (by decide +kernel)
  have progress : options.progress "" tree =
      lintAll (options.registry "" tree) false tree ["a.jsx"] := by
    rw [← paths]
    rfl
  have any : Files.collect tree options.patterns ≠ [] := by simp [paths]
  refine ⟨(lint_json "" false tree rfl).trans (if_neg any), ?_, ?_⟩
  · simp only [entries, results, progress]
    decide +kernel
  · simp only [entries, results, progress]
    decide +kernel

end Cli

end ClientBoundary
