import ClientBoundary.Json.Value
import ClientBoundary.Linter
import ClientBoundary.Text.Position

/-! Results as JSON, for tools. -/
namespace ClientBoundary.Report

abbrev Sources := List (String × String)

/-- The text under a file name: the last one listed, or none at all. -/
def Sources.text (sources : Sources) (fileName : String) : String :=
  ((sources.reverse.find? (·.1 = fileName)).map (·.2)).getD ""

def severityNumber : Severity → Int
  | .error => 2
  | .warning => 1

/-- A fix as one replacement: the range of all its edits, and their texts in order. -/
def fixJson (fix : Fix) : Json :=
  .object [
    ("range", .array [.integer fix.range.1, .integer fix.range.2]),
    ("text", .string (String.join (fix.edits.map (·.newText))))]

def messageJson (index : LineIndex) (diagnostic : Diagnostic) : Json :=
  let start := index.position diagnostic.span.start
  let stop := index.position diagnostic.span.stop
  .object ([
    ("ruleId", .string diagnostic.rule),
    ("messageId", .string diagnostic.messageId),
    ("severity", .integer (severityNumber diagnostic.severity)),
    ("message", .string diagnostic.message),
    ("line", .integer start.line),
    ("column", .integer start.column),
    ("endLine", .integer stop.line),
    ("endColumn", .integer stop.column)] ++
    diagnostic.fix.toList.map fun fix => ("fix", fixJson fix))

def fixableCount (severity : Severity) (diagnostics : List Diagnostic) : Nat :=
  severity.count (diagnostics.filter (·.fix.isSome))

def resultJson (sources : Sources) (result : LintResult) : Json :=
  let index := LineIndex.ofText (sources.text result.fileName).toList
  .object [
    ("filePath", .string result.fileName),
    ("messages", .array (result.diagnostics.map (messageJson index))),
    ("errorCount", .integer result.errors),
    ("warningCount", .integer result.warnings),
    ("fixableErrorCount", .integer (fixableCount .error result.diagnostics)),
    ("fixableWarningCount", .integer (fixableCount .warning result.diagnostics))]

def json (results : List LintResult) (sources : Sources) : String :=
  (Json.array (results.map (resultJson sources))).pretty

end ClientBoundary.Report
