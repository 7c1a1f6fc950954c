import ClientBoundary.Proofs.FileOutcome

/-! The totals of a run and its exit code. The same errors and warnings are counted by the ledger of
each module, by the summary over several modules and by the run over its files, and the counts
agree; only the run takes a module that does not parse for an error. How the results are shown plays
no part in it. -/
namespace ClientBoundary

theorem Registry.lintModule_balanced {registry : Registry} {source fileName : String}
    {result : LintResult} (linted : registry.lintModule source fileName = .ok result) :
    result.fileName = fileName ∧ result.errors = Severity.error.count result.diagnostics ∧
      result.warnings = Severity.warning.count result.diagnostics := by
  cases read : Module.read? fileName source with
  | none => simp [lintModule, read] at linted
  | some module =>
    cases (registry.lintModule_of_read read).symm.trans linted
    have balanced := registry.inspect_balanced module
    exact ⟨rfl, balanced.errors, balanced.warnings⟩

section Summary

theorem Summary.foldl_add (diagnostics : List Diagnostic) (summary : Summary) :
    diagnostics.foldl Summary.add summary =
      { summary with
        errors := summary.errors + Severity.error.count diagnostics
        warnings := summary.warnings + Severity.warning.count diagnostics } := by
  induction diagnostics generalizing summary with
  | nil => rfl
  | cons diagnostic rest ih =>
    rw [List.foldl_cons, ih]
    cases severity : diagnostic.severity <;>
      simp [Summary.add, Severity.count, severity] <;> omega

def linted (results : List (Except LintError LintResult)) : List LintResult :=
  results.filterMap Except.toOption

@[simp] theorem linted_error (cause : LintError) (rest : List (Except LintError LintResult)) :
    linted (.error cause :: rest) = linted rest := rfl

@[simp] theorem linted_ok (result : LintResult) (rest : List (Except LintError LintResult)) :
    linted (.ok result :: rest) = result :: linted rest := rfl

def failures (results : List (Except LintError LintResult)) : Nat :=
  results.countP (!·.isOk)

@[simp] theorem failures_error (cause : LintError) (rest : List (Except LintError LintResult)) :
    failures (.error cause :: rest) = failures rest + 1 :=
  List.countP_cons_of_pos rfl

@[simp] theorem failures_ok (result : LintResult) (rest : List (Except LintError LintResult)) :
    failures (.ok result :: rest) = failures rest :=
  List.countP_cons_of_neg Bool.false_ne_true

/-- Going through results diagnostic by diagnostic, the summary adds up what they have counted. -/
theorem Summary.foldl_results {step : Summary → Except LintError LintResult → Summary}
    (adds : ∀ summary result, step summary (.ok result) = result.diagnostics.foldl Summary.add summary)
    (skips : ∀ summary cause, step summary (.error cause) = summary)
    (results : List (Except LintError LintResult))
    (balanced : ∀ result, .ok result ∈ results →
      result.errors = Severity.error.count result.diagnostics ∧
        result.warnings = Severity.warning.count result.diagnostics) (summary : Summary) :
    results.foldl step summary =
      { summary with
        errors := summary.errors + ((linted results).map (·.errors)).sum
        warnings := summary.warnings + ((linted results).map (·.warnings)).sum } := by
  induction results generalizing summary with
  | nil => rfl
  | cons first rest ih =>
    have later := ih fun result member => balanced result (List.mem_cons_of_mem _ member)
    cases first with
    | error cause =>
      rw [List.foldl_cons, skips, later]
      rfl
    | ok result =>
      obtain ⟨errors, warnings⟩ := balanced result List.mem_cons_self
      rw [List.foldl_cons, adds, later, Summary.foldl_add, ← errors, ← warnings]
      simp [Nat.add_assoc]

end Summary

namespace Registry

variable (registry : Registry) (files : List (String × String))

theorem lintFiles_results :
    (registry.lintFiles files).1 = files.map fun file => registry.lintModule file.2 file.1 := rfl

theorem lintFiles_balanced (result : LintResult) (member : .ok result ∈ (registry.lintFiles files).1) :
    result.errors = Severity.error.count result.diagnostics ∧
      result.warnings = Severity.warning.count result.diagnostics := by
  obtain ⟨file, _, linted⟩ := List.mem_map.mp member
  exact (lintModule_balanced linted).2

theorem lintFiles_summary :
    (registry.lintFiles files).2 =
      { errors := ((linted (registry.lintFiles files).1).map (·.errors)).sum
        warnings := ((linted (registry.lintFiles files).1).map (·.warnings)).sum
        files := files.length } := by
  have balanced := registry.lintFiles_balanced files
  simp only [lintFiles] at balanced ⊢
  rw [Summary.foldl_results (by intros; rfl) (by intros; rfl) _ balanced]
  simp

end Registry

namespace Cli

/-- The errors that a result adds to the total. A module that does not parse is one. -/
def countedErrors : Except LintError LintResult → Nat
  | .ok result => result.errors
  | .error _ => 1

def countedWarnings : Except LintError LintResult → Nat
  | .ok result => result.warnings
  | .error _ => 0

def failureNotes : Except LintError LintResult → List Note
  | .ok _ => []
  | .error (.parse fileName) => [.unparsable fileName]

theorem sum_countedErrors (results : List (Except LintError LintResult)) :
    (results.map countedErrors).sum = ((linted results).map (·.errors)).sum + failures results := by
  induction results with
  | nil => rfl
  | cons first rest ih =>
    cases first <;> simp only [List.map_cons, List.sum_cons, countedErrors, ih, linted_error,
      linted_ok, failures_error, failures_ok] <;> omega

theorem sum_countedWarnings (results : List (Except LintError LintResult)) :
    (results.map countedWarnings).sum = ((linted results).map (·.warnings)).sum := by
  induction results with
  | nil => rfl
  | cons first rest ih => cases first <;> simp [countedWarnings, ih]

namespace FileOutcome

def reported (outcome : FileOutcome) : Option (String × LintResult) :=
  outcome.result.bind fun (source, result) => result.toOption.map (source, ·)

def errors (outcome : FileOutcome) : Nat := outcome.result.elim 0 (countedErrors ·.2)

def warnings (outcome : FileOutcome) : Nat := outcome.result.elim 0 (countedWarnings ·.2)

def noted (outcome : FileOutcome) : List Note :=
  outcome.notes ++ outcome.result.elim [] (failureNotes ·.2)

end FileOutcome

theorem Progress.add_eq (registry : Registry) (fix : Bool) (progress : Progress) (path : String) :
    progress.add registry fix path =
      let outcome := lintFile registry fix progress.tree path
      { tree := outcome.tree
        results := progress.results ++ outcome.reported.toList
        errors := progress.errors + outcome.errors
        warnings := progress.warnings + outcome.warnings
        notes := progress.notes ++ outcome.noted } := by
  unfold Progress.add
  generalize lintFile registry fix progress.tree path = outcome
  obtain ⟨tree, result, notes⟩ := outcome
  rcases result with _ | ⟨source, ⟨⟨fileName⟩⟩ | result⟩ <;>
    simp [FileOutcome.reported, FileOutcome.errors, FileOutcome.warnings, FileOutcome.noted,
      countedErrors, countedWarnings, failureNotes, Except.toOption]

def readable (tree : FileTree) (paths : List String) : List (String × String) :=
  paths.filterMap fun path => (tree.text? path).map (path, ·)

theorem lintFile_unfixed (registry : Registry) (tree : FileTree) (path : String) :
    (lintFile registry false tree path).tree = tree ∧
      (lintFile registry false tree path).result =
        (tree.text? path).map fun source => (source, registry.lintModule source path) := by
  have comes := lintFile_comes registry false tree path
  generalize lintFile registry false tree path = outcome at comes
  cases comes with
  | unreadable unread => simp [unread]
  | kept read settled => simp [read]
  | unfixable read asked fails => cases asked
  | written read asked fixes changed writes => cases asked
  | unwritable read asked fixes changed refused => cases asked

/-- The run without fixing has counted these results, and no file has changed. -/
structure Counts (results : List (Except LintError LintResult)) (before after : Progress) : Prop where
  tree : after.tree = before.tree
  errors : after.errors = before.errors + (results.map countedErrors).sum
  warnings : after.warnings = before.warnings + (results.map countedWarnings).sum

theorem Counts.trans {first second : List (Except LintError LintResult)}
    {before between after : Progress} (counts : Counts first before between)
    (further : Counts second between after) : Counts (first ++ second) before after where
  tree := further.tree.trans counts.tree
  errors := by
    rw [further.errors, counts.errors, List.map_append, List.sum_append, Nat.add_assoc]
  warnings := by
    rw [further.warnings, counts.warnings, List.map_append, List.sum_append, Nat.add_assoc]

section Unfixed

variable (registry : Registry)

theorem Progress.add_counts (progress : Progress) (path : String) :
    Counts (registry.lintFiles (readable progress.tree [path])).1 progress
      (progress.add registry false path) := by
  obtain ⟨tree, result⟩ := lintFile_unfixed registry progress.tree path
  rw [Progress.add_eq]
  cases read : progress.tree.text? path <;>
    constructor <;>
      simp [tree, FileOutcome.errors, FileOutcome.warnings, result, read, readable,
        Registry.lintFiles_results]

theorem foldl_add_counts (paths : List String) (progress : Progress) :
    Counts (registry.lintFiles (readable progress.tree paths)).1 progress
      (paths.foldl (Progress.add registry false) progress) := by
  induction paths generalizing progress with
  | nil => exact ⟨rfl, rfl, rfl⟩
  | cons path rest ih =>
    have first := progress.add_counts registry path
    have later := ih (progress.add registry false path)
    have split : readable progress.tree (path :: rest) =
        readable progress.tree [path] ++ readable progress.tree rest :=
      List.filterMap_append (l := [path])
    rw [first.tree] at later
    rw [split, Registry.lintFiles_results, List.map_append]
    exact first.trans later

end Unfixed

def Options.registry (options : Options) (folder : String) (tree : FileTree) : Registry :=
  ((loadConfig folder options.config tree).1.getD {}).registry

def Options.progress (options : Options) (folder : String) (tree : FileTree) : Progress :=
  lintAll (options.registry folder tree) options.fix tree (Files.collect tree options.patterns)

/-- What a run prints once it is through with some number of files. -/
def Options.printed (options : Options) (files : Nat) (progress : Progress) : String :=
  let report := reportOf options progress.results
  let isShown := options.format = .json || !report.toList.all Char.isWhitespace
  let shown := if isShown then report else ""
  if options.format = .text then
    shown ++ "\n" ++ Report.summary progress.errors progress.warnings files ++ "\n"
  else shown

section Lint

variable (folder : String) (verbose : Bool) (options : Options) (tree : FileTree)

theorem lint_exitCode :
    (lint folder verbose options tree).exitCode =
      exitCode options (options.progress folder tree).errors
        (options.progress folder tree).warnings := by
  unfold lint Options.progress
  cases Files.collect tree options.patterns with
  | nil => cases options.maxWarnings <;> simp [exitCode, lintAll]
  | cons path rest => rfl

theorem lint_tree :
    (lint folder verbose options tree).tree = (options.progress folder tree).tree := by
  unfold lint Options.progress
  cases Files.collect tree options.patterns <;> rfl

theorem lint_output :
    (lint folder verbose options tree).output =
      if Files.collect tree options.patterns = [] then ""
      else options.printed (Files.collect tree options.patterns).length
        (options.progress folder tree) := by
  unfold lint Options.progress
  cases Files.collect tree options.patterns <;> rfl

theorem exitCode_eq_one_iff (errors warnings : Nat) :
    exitCode options errors warnings = 1 ↔
      0 < errors ∨ ∃ limit, options.maxWarnings = some limit ∧ limit < warnings := by
  unfold exitCode
  cases options.maxWarnings with
  | none => simp
  | some limit =>
    simp
    omega

theorem exitCode_le_one (errors warnings : Nat) : exitCode options errors warnings ≤ 1 := by
  unfold exitCode
  split <;> decide

end Lint

/-- Totals and exit code. Several modules are linted as if each were alone, each result counts its
own diagnostics, and the summary adds up the counts. A run that does not fix counts the same over
the files that it can read, and one error more for each that does not parse. Every run fails exactly
if there are errors, or more warnings than it was to allow. The options that say how results are
shown change neither the totals, which the last line tells, nor the exit code nor the files. -/
theorem totals_decide_exit_code (registry : Registry) (files : List (String × String))
    (folder : String) (verbose : Bool) (options : Options) (tree : FileTree) :
    (let results := (registry.lintFiles files).1
     let summary := (registry.lintFiles files).2
     (∀ i : Nat, results[i]? = files[i]?.map fun file => registry.lintModule file.2 file.1) ∧
     (∀ result, .ok result ∈ results →
       result.errors = Severity.error.count result.diagnostics ∧
       result.warnings = Severity.warning.count result.diagnostics) ∧
     summary.errors = ((linted results).map (·.errors)).sum ∧
     summary.warnings = ((linted results).map (·.warnings)).sum) ∧
    let paths := Files.collect tree options.patterns
    let progress := options.progress folder tree
    let outcome := lint folder verbose options tree
    (options.fix = false →
      let alone := (options.registry folder tree).lintFiles (readable tree paths)
      progress.errors = alone.2.errors + failures alone.1 ∧
      progress.warnings = alone.2.warnings) ∧
    outcome.exitCode ≤ 1 ∧
    (outcome.exitCode = 1 ↔ 0 < progress.errors ∨
      ∃ limit, options.maxWarnings = some limit ∧ limit < progress.warnings) ∧
    (options.format = .text → paths ≠ [] → ∃ shown, outcome.output =
      shown ++ "\n" ++ Report.summary progress.errors progress.warnings paths.length ++ "\n") ∧
    ∀ (quiet : Bool) (format : ReportFormat),
      let shownOtherwise := { options with quiet, format }
      let otherwise := lint folder verbose shownOtherwise tree
      (shownOtherwise.progress folder tree).errors = progress.errors ∧
      (shownOtherwise.progress folder tree).warnings = progress.warnings ∧
      otherwise.exitCode = outcome.exitCode ∧
      otherwise.tree = outcome.tree := by
  refine ⟨⟨fun i => ?_, registry.lintFiles_balanced files, ?_, ?_⟩, fun unfixed => ?_, ?_, ?_,
    fun isText any => ?_, fun quiet format => ⟨rfl, rfl, ?_, ?_⟩⟩
  · rw [Registry.lintFiles_results, List.getElem?_map]
  · rw [registry.lintFiles_summary]
  · rw [registry.lintFiles_summary]
  · have counts := foldl_add_counts (options.registry folder tree)
      (Files.collect tree options.patterns) { tree }
    have errors := counts.errors
    have warnings := counts.warnings
    rw [sum_countedErrors, Nat.zero_add] at errors
    rw [sum_countedWarnings, Nat.zero_add] at warnings
    simp only [Registry.lintFiles_summary, Options.progress, lintAll, unfixed]
    exact ⟨errors, warnings⟩
  · rw [lint_exitCode]
    exact exitCode_le_one ..
  · rw [lint_exitCode, exitCode_eq_one_iff]
  · rw [lint_output, if_neg any, Options.printed, if_pos isText]
    exact ⟨_, rfl⟩
  · rw [lint_exitCode, lint_exitCode]
    rfl
  · rw [lint_tree, lint_tree]
    rfl

end Cli

end ClientBoundary
