import ClientBoundary.Cli.Run
import ClientBoundary.Proofs.FileAccess
import ClientBoundary.Proofs.FixPass

/-! What can come of one file. It may not be readable, it may be linted as it is, it may not be
possible to fix it or to write what the fixes made of it. On each way the text that is reported on
is the text that is on disk at the end. -/
namespace ClientBoundary

theorem Registry.fixModule_of_one_fix {registry : Registry} {fileName source fixed : String}
    {fix : Fix}
    (asks : (registry.lintModule source fileName).toOption.any (·.fixes = [fix]) = true)
    (applied : fix.applyTo? source = some fixed) (changed : fixed ≠ source)
    (settled : (registry.lintModule fixed fileName).toOption.any (·.fixes = []) = true) :
    registry.fixModule source fileName = .ok fixed := by
  cases first : registry.lintModule source fileName with
  | error cause => simp [first, Except.toOption] at asks
  | ok before =>
    cases second : registry.lintModule fixed fileName with
    | error cause => simp [second, Except.toOption] at settled
    | ok after =>
      have one : before.fixes = [fix] := by simpa [first, Except.toOption] using asks
      have none : after.fixes = [] := by simpa [second, Except.toOption] using settled
      rw [fixModule, maxFixPasses, fixWithin_of_fix first (by simp [one])
        (by rw [one, Fix.applyAll?_singleton, applied]) changed,
        fixWithin_of_no_fix second none]

namespace Cli

/-- The ways to lint a file, with the outcome of each. What is said only when asked for is left
open. -/
inductive Comes (registry : Registry) (fix : Bool) (tree : FileTree) (path : String) :
    FileOutcome → Prop where
  | unreadable (unread : tree.text? path = none) :
    Comes registry fix tree path { tree, result := none, notes := [.unreadable path] }
  | kept {source : String} {trace : List Note} (read : tree.text? path = some source)
    (settled : fix = false ∨ registry.fixModule source path = .ok source) :
    Comes registry fix tree path
      { tree, result := some (source, registry.lintModule source path), trace }
  | unfixable {source : String} {cause : LintError} {trace : List Note}
    (read : tree.text? path = some source) (asked : fix = true)
    (fails : registry.fixModule source path = .error cause) :
    Comes registry fix tree path { tree, result := some (source, .error cause), trace }
  | written {source fixed : String} {after : FileTree} {trace : List Note}
    (read : tree.text? path = some source) (asked : fix = true)
    (fixes : registry.fixModule source path = .ok fixed) (changed : fixed ≠ source)
    (writes : tree.write? path fixed = some after) :
    Comes registry fix tree path
      { tree := after
        result := some (fixed, registry.lintModule fixed path)
        attempts := [⟨path, fixed, true⟩]
        trace }
  | unwritable {source fixed : String} {trace : List Note} (read : tree.text? path = some source)
    (asked : fix = true) (fixes : registry.fixModule source path = .ok fixed)
    (changed : fixed ≠ source) (refused : tree.write? path fixed = none) :
    Comes registry fix tree path
      { tree
        result := some (source, registry.lintModule source path)
        attempts := [⟨path, fixed, false⟩]
        notes := [.unwritable path]
        trace }

theorem lintFile_comes (registry : Registry) (fix : Bool) (tree : FileTree) (path : String) :
    Comes registry fix tree path (lintFile registry fix tree path) := by
  cases read : (tree.file? path).bind (·.contents.text?) with
  | none =>
    simp only [lintFile, read]
    exact .unreadable read
  | some source =>
    cases fix with
    | false =>
      simp only [lintFile, read, Bool.false_eq_true, if_false]
      exact .kept read (.inl rfl)
    | true =>
      simp only [lintFile, read, if_true]
      cases fixes : (registry.fixing path maxFixPasses source).outcome with
      | error cause => exact .unfixable read rfl fixes
      | ok fixed =>
        by_cases same : fixed = source
        · subst same
          simp only [lintFixed, if_true]
          exact .kept read (.inr fixes)
        · cases writes : tree.write? path fixed with
          | none =>
            simp only [lintFixed, same, if_false, writes]
            exact .unwritable read rfl fixes same writes
          | some after =>
            simp only [lintFixed, same, if_false, writes]
            exact .written read rfl fixes same writes

def Changes (registry : Registry) (tree : FileTree) (path fixed : String) : Prop :=
  ∃ source, tree.text? path = some source ∧ registry.fixModule source path = .ok fixed ∧
    fixed ≠ source

theorem changes_iff {registry : Registry} {tree : FileTree} {path source : String}
    (read : tree.text? path = some source) (fixed : String) :
    Changes registry tree path fixed ↔
      registry.fixModule source path = .ok fixed ∧ fixed ≠ source := by
  simp [Changes, read]

/-- A single attempt to write is the one that fixing asks for. -/
theorem attempted_iff {registry : Registry} {fix : Bool} {tree : FileTree} {path source fixed : String}
    (read : tree.text? path = some source) (asked : fix = true)
    (fixes : registry.fixModule source path = .ok fixed) (changed : fixed ≠ source) {succeeded : Bool}
    (written : succeeded = (tree.write? path fixed).isSome) (attempt : WriteAttempt) :
    attempt ∈ [(⟨path, fixed, succeeded⟩ : WriteAttempt)] ↔
      fix = true ∧ attempt.path = path ∧ Changes registry tree path attempt.text ∧
      attempt.succeeded = (tree.write? path attempt.text).isSome := by
  obtain ⟨place, text, success⟩ := attempt
  rw [List.mem_singleton, WriteAttempt.mk.injEq, changes_iff read, fixes, Except.ok.injEq]
  constructor
  · rintro ⟨rfl, rfl, rfl⟩
    exact ⟨asked, rfl, ⟨rfl, changed⟩, written⟩
  · rintro ⟨_, rfl, ⟨rfl, _⟩, success⟩
    exact ⟨rfl, rfl, success.trans written.symm⟩

def afterAttempts (tree : FileTree) (attempts : List WriteAttempt) : FileTree :=
  attempts.foldl (fun tree attempt => tree.overwrite attempt.path attempt.text) tree

/-- What is reported of a file is what is on disk. If a text is reported on, the file holds it at
the end, and a result is that of linting it. If the file cannot be read, or if fixing fails at some
pass, nothing on disk has changed. The disk changes by what is written and by nothing else. At most
one attempt to write is made, and it is made exactly if fixing was asked for and makes another text
of the file: to this file, with this text, and with success if the file can be written. An attempt
that fails is noted. -/
theorem reported_is_on_disk (registry : Registry) (fix : Bool) (tree : FileTree) (path : String) :
    let outcome := lintFile registry fix tree path
    (∀ source result, outcome.result = some (source, result) →
      outcome.tree.text? path = some source ∧
      ∀ linted, result = .ok linted → registry.lintModule source path = .ok linted) ∧
    (outcome.result = none ↔ tree.text? path = none) ∧
    (outcome.result = none → outcome.tree = tree) ∧
    (∀ source cause, tree.text? path = some source →
      registry.fixModule source path = .error cause → outcome.tree = tree) ∧
    outcome.tree = afterAttempts tree outcome.attempts ∧
    outcome.attempts.length ≤ 1 ∧
    (∀ attempt, attempt ∈ outcome.attempts ↔
      fix = true ∧ attempt.path = path ∧ Changes registry tree path attempt.text ∧
      attempt.succeeded = (tree.write? path attempt.text).isSome) ∧
    (∀ fixed, fix = true → Changes registry tree path fixed →
      outcome.tree = tree.overwrite path fixed) ∧
    (∀ place, .unwritable place ∈ outcome.notes ↔
      ∃ attempt ∈ outcome.attempts, attempt.path = place ∧ attempt.succeeded = false) := by
  intro outcome
  have comes : Comes registry fix tree path outcome := lintFile_comes registry fix tree path
  generalize outcome = outcome at comes
  cases comes with
  | unreadable unread => simp [Changes, unread, afterAttempts]
  | kept read settled =>
    have unchanged : ∀ fixed, fix = true → ¬Changes registry tree path fixed := by
      intro fixed asked changes
      obtain ⟨fixes, changed⟩ := (changes_iff read fixed).mp changes
      rcases settled with unasked | same
      · cases asked.symm.trans unasked
      · cases same.symm.trans fixes
        exact changed rfl
    refine ⟨by simp [read], by simp [read], by simp, by simp, rfl, by simp, ?_, ?_, by simp⟩
    · intro attempt
      refine ⟨by simp, ?_⟩
      rintro ⟨asked, _, changes, _⟩
      exact absurd changes (unchanged _ asked)
    · intro fixed asked changes
      exact absurd changes (unchanged fixed asked)
  | unfixable read asked fails =>
    refine ⟨by simp [read], by simp [read], by simp, by simp, rfl, by simp, ?_, ?_, by simp⟩
    all_goals simp [changes_iff read, fails]
  | @written source fixed after trace read asked fixes changed writes =>
    have overwritten : after = tree.overwrite path fixed := by
      rw [FileTree.overwrite, writes, Option.getD_some]
    refine ⟨by simp [FileTree.text?_write? writes], by simp [read], by simp, ?_, overwritten,
      by simp, ?_, ?_, by simp⟩
    · intro source cause isSource fails
      cases read.symm.trans isSource
      cases fixes.symm.trans fails
    · exact attempted_iff read asked fixes changed (by rw [writes]; rfl)
    · simp [changes_iff read, fixes, overwritten]
  | @unwritable source fixed trace read asked fixes changed refused =>
    have kept : tree = tree.overwrite path fixed := by
      rw [FileTree.overwrite, refused, Option.getD_none]
    refine ⟨by simp [read], by simp [read], by simp, by simp, kept, by simp, ?_, ?_, ?_⟩
    · exact attempted_iff read asked fixes changed (by rw [refused]; rfl)
    · simp [changes_iff read, fixes, ← kept]
    · intro place
      simp only [List.mem_singleton, Note.unwritable.injEq, exists_eq_left, and_true]
      exact eq_comm

/-- A file with a browser name in it is given the directive. -/
theorem reported_is_on_disk_browser_name :
    let tree := FileTree.folder [("a.jsx", .file ⟨.text "window.a", true⟩)]
    let outcome := lintFile .recommended true tree "a.jsx"
    Changes .recommended tree "a.jsx" "'use client';\n\nwindow.a" ∧
      ⟨"a.jsx", "'use client';\n\nwindow.a", true⟩ ∈ outcome.attempts ∧
      outcome.tree.text? "a.jsx" = some "'use client';\n\nwindow.a" ∧
      ∃ result, outcome.result = some ("'use client';\n\nwindow.a", result) := by
  intro tree outcome
  have read : tree.text? "a.jsx" = some "window.a" := by decide +kernel
  have fixes := @Registry.fixModule_of_one_fix .recommended "a.jsx" "window.a" _
    (UseClient.insertDirective "window.a" 0) (by decide +kernel)
    (@UseClient.insertDirective_applyTo? "window.a" [] "window.a".toList rfl)
    (by decide +kernel) (by decide +kernel)
  have changes : Changes .recommended tree "a.jsx" "'use client';\n\nwindow.a" :=
    (changes_iff read _).mpr ⟨fixes, by decide⟩
  obtain ⟨reports, unreadable, _, _, _, _, attempts, writes, _⟩ :=
    reported_is_on_disk .recommended true tree "a.jsx"
  have text : outcome.tree.text? "a.jsx" = some "'use client';\n\nwindow.a" := by
    rw [writes _ rfl changes]
    decide +kernel
  cases found : outcome.result with
  | none =>
    have lost := read.symm.trans (unreadable.mp found)
    cases lost
  | some reported =>
    obtain ⟨source, result⟩ := reported
    cases text.symm.trans (reports source result found).1
    exact ⟨changes, (attempts _).mpr ⟨rfl, rfl, changes, by decide +kernel⟩, text, result, rfl⟩

end Cli

end ClientBoundary
