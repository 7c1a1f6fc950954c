import ClientBoundary.Report.TextReport

/-! The formats in which results are reported, and the line that sums them up. -/
namespace ClientBoundary

inductive ReportFormat where
  | text
  | json
  deriving DecidableEq, Repr, Inhabited

namespace Report

def render (format : ReportFormat) (results : List LintResult) (sources : Sources) : String :=
  match format with
  | .text => text results sources
  | .json => json results sources

def counted (n : Nat) (thing : String) : String :=
  toString n ++ " " ++ thing ++ if n = 1 then "" else "s"

def summary (errors warnings files : Nat) : String :=
  let parts := (if errors = 0 then [] else [counted errors "error"]) ++
    (if warnings = 0 then [] else [counted warnings "warning"])
  let problems := if parts.isEmpty then "No problems found" else ", ".intercalate parts
  problems ++ " in " ++ counted files "file"

end Report

end ClientBoundary
