import ClientBoundary.Config

/-! Linting: modules go in, diagnostics come out, and fixes are applied until nothing changes. -/
namespace ClientBoundary

structure LintResult where
  fileName : String
  diagnostics : List Diagnostic
  errors : Nat
  warnings : Nat
  deriving DecidableEq, Repr

namespace LintResult

def hasErrors (result : LintResult) : Bool := 0 < result.errors

def hasDiagnostics (result : LintResult) : Bool := !result.diagnostics.isEmpty

def hasFixes (result : LintResult) : Bool := result.diagnostics.any (·.fix.isSome)

end LintResult

inductive LintError where
  /-- The module does not parse. -/
  | parse (fileName : String)
  deriving DecidableEq, Repr

def Registry.lintModule (registry : Registry) (source fileName : String) :
    Except LintError LintResult :=
  match Module.read? fileName source with
  | none => .error (.parse fileName)
  | some module =>
    let ledger := registry.inspect module
    .ok ⟨fileName, ledger.diagnostics, ledger.errors, ledger.warnings⟩

/-- Lints several modules. Modules that do not parse count as files but not in the totals. -/
def Registry.lintFiles (registry : Registry) (files : List (String × String)) :
    List (Except LintError LintResult) × Summary :=
  let results := files.map fun (fileName, source) => registry.lintModule source fileName
  let summary := results.foldl (fun summary result => match result with
    | .ok result => result.diagnostics.foldl Summary.add summary
    | .error _ => summary) {}
  (results, { summary with files := files.length })

def maxFixPasses : Nat := 10

/-- A pass over a module: the text that it starts from, and whether fixes change it. -/
structure FixPass where
  source : String
  applied : Bool
  deriving DecidableEq, Repr

/-- The passes that were made over a module, and the text that they came to. -/
structure Fixing where
  passes : List FixPass
  outcome : Except LintError String

/-- Applies fixes for a number of passes at most. Stops when there is none, or when they change
nothing. An edit through the middle of a character would end the program; here it changes nothing.
The one rule that there is makes no such edit of a text that its tree lies in. -/
def Registry.fixing (registry : Registry) (fileName : String) : Nat → String → Fixing
  | 0, source => ⟨[], .ok source⟩
  | passes + 1, source =>
    match registry.lintModule source fileName with
    | .error cause => ⟨[⟨source, false⟩], .error cause⟩
    | .ok result =>
      let fixed := (applyFixes? source result.diagnostics).getD source
      if !result.hasFixes || fixed = source then ⟨[⟨source, false⟩], .ok source⟩
      else
        let later := registry.fixing fileName passes fixed
        ⟨⟨source, true⟩ :: later.passes, later.outcome⟩

def Registry.fixWithin (registry : Registry) (fileName : String) (passes : Nat) (source : String) :
    Except LintError String :=
  (registry.fixing fileName passes source).outcome

def Registry.fixModule (registry : Registry) (source fileName : String) :
    Except LintError String :=
  registry.fixWithin fileName maxFixPasses source

end ClientBoundary
