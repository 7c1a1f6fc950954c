import ClientBoundary.Proofs.JsonText
import ClientBoundary.Proofs.Positions
import ClientBoundary.Proofs.ReportedFix

/-! The JSON report read back. Its text is one array, which a tool that knows nothing but JSON takes
apart again: an entry for each result with its counts, and a message for each diagnostic with its
texts, its positions and its fix. Nothing is lost on the way, whatever characters the texts have in
them. -/
namespace ClientBoundary

/-- The last text listed under a file name, and the empty one if there is none. -/
def Report.Sources.IsLast (sources : Sources) (fileName text : String) : Prop :=
  (∃ before after, sources = before ++ (fileName, text) :: after ∧
    ∀ other ∈ after, other.1 ≠ fileName) ∨
  (∀ source ∈ sources, source.1 ≠ fileName) ∧ text = ""

namespace Report

structure Message where
  rule : String
  messageId : String
  severity : Int
  text : String
  start : Position
  stop : Position
  fix : Option TextEdit
  deriving DecidableEq, Repr

structure FileEntry where
  fileName : String
  messages : List Message
  errors : Int
  warnings : Int
  fixableErrors : Int
  fixableWarnings : Int
  deriving DecidableEq, Repr

def statedText? (entry : Json) (key : String) : Option String := (entry.member? key).bind Json.text?

/-- A message may have no fix, but not one that cannot be read. -/
def statedFix? (message : Json) : Option (Option TextEdit) :=
  match message.member? "fix" with
  | none => some none
  | some fix => (replacement? fix).map some

def message? (json : Json) : Option Message := do
  return {
    rule := ← statedText? json "ruleId"
    messageId := ← statedText? json "messageId"
    severity := ← stated? json "severity"
    text := ← statedText? json "message"
    start := ← statedPosition? "line" "column" json
    stop := ← statedPosition? "endLine" "endColumn" json
    fix := ← statedFix? json }

def fileResult? (json : Json) : Option FileEntry := do
  return {
    fileName := ← statedText? json "filePath"
    messages := ← (messages json).mapM message?
    errors := ← stated? json "errorCount"
    warnings := ← stated? json "warningCount"
    fixableErrors := ← stated? json "fixableErrorCount"
    fixableWarnings := ← stated? json "fixableWarningCount" }

structure Restates (source : String) (diagnostic : Diagnostic) (message : Message) : Prop where
  rule : message.rule = diagnostic.rule
  messageId : message.messageId = diagnostic.messageId
  error : diagnostic.severity = .error → message.severity = 2
  warning : diagnostic.severity = .warning → message.severity = 1
  text : message.text = diagnostic.message
  start : message.start = (LineIndex.ofText source.toList).position diagnostic.span.start
  stop : message.stop = (LineIndex.ofText source.toList).position diagnostic.span.stop
  fix : message.fix = diagnostic.fix.map fun fix =>
    ⟨fix.range.1, fix.range.2, String.join (fix.edits.map (·.newText))⟩

structure Records (sources : Sources) (result : LintResult) (entry : FileEntry) : Prop where
  fileName : entry.fileName = result.fileName
  errors : entry.errors = result.errors
  warnings : entry.warnings = result.warnings
  fixableErrors : entry.fixableErrors =
    result.diagnostics.countP fun diagnostic => diagnostic.severity = .error ∧ diagnostic.fix.isSome
  fixableWarnings : entry.fixableWarnings =
    result.diagnostics.countP fun diagnostic => diagnostic.severity = .warning ∧ diagnostic.fix.isSome
  messages : ∃ text, sources.IsLast result.fileName text ∧
    List.Forall₂ (Restates text) result.diagnostics entry.messages

/-- All counts and offsets that the report can come to state fit into 64 bits. -/
structure Sized (results : List LintResult) : Prop where
  counts : ∀ result ∈ results, result.errors < 2 ^ 64 ∧ result.warnings < 2 ^ 64 ∧
    result.diagnostics.length < 2 ^ 64
  offsets : ∀ result ∈ results, ∀ diagnostic ∈ result.diagnostics, ∀ fix ∈ diagnostic.fix,
    ∀ edit ∈ fix.edits, edit.start < 2 ^ 64 ∧ edit.stop < 2 ^ 64

end Report

/-! Sizes. -/

theorem LineIndex.position_lt (index : LineIndex) (offset : Nat) :
    (index.position offset).line < 2 ^ 32 ∧ (index.position offset).column < 2 ^ 32 :=
  ⟨UInt32.toNat_lt _, UInt32.toNat_lt _⟩

theorem Fix.range_lt {fix : Fix} {bound : Nat} (positive : 0 < bound)
    (below : ∀ edit ∈ fix.edits, edit.start < bound ∧ edit.stop < bound) :
    fix.range.1 < bound ∧ fix.range.2 < bound := by
  rw [range]
  constructor
  · cases least : (fix.edits.map (·.start)).min? with
    | none => exact positive
    | some start =>
      obtain ⟨edit, member, rfl⟩ := List.mem_map.mp (List.min?_mem least)
      exact (below edit member).1
  · cases most : (fix.edits.map (·.stop)).max? with
    | none => exact positive
    | some stop =>
      obtain ⟨edit, member, rfl⟩ := List.mem_map.mp (List.max?_mem most)
      exact (below edit member).2

namespace Report

theorem isLast_text (sources : Sources) (fileName : String) :
    sources.IsLast fileName (sources.text fileName) := by
  unfold Sources.text
  cases found : sources.reverse.find? (·.1 = fileName) with
  | none =>
    refine .inr ⟨fun source member => ?_, rfl⟩
    simpa using List.find?_eq_none.mp found source (List.mem_reverse.mpr member)
  | some source =>
    obtain ⟨named, later, earlier, split, others⟩ := List.find?_eq_some_iff_append.mp found
    refine .inl ⟨earlier.reverse, later.reverse, ?_, fun other member => ?_⟩
    · have whole := congrArg List.reverse split
      simp only [List.reverse_reverse, List.reverse_append, List.reverse_cons, List.append_assoc,
        List.singleton_append] at whole
      rw [whole, ← of_decide_eq_true named]
      rfl
    · simpa using others other (List.mem_reverse.mp member)

theorem isLast_iff {sources : Sources} {fileName text : String} :
    sources.IsLast fileName text ↔ sources.text fileName = text := by
  constructor
  · rintro (⟨before, after, rfl, others⟩ | ⟨others, rfl⟩)
    · have later : after.reverse.find? (·.1 = fileName) = none := by
        simpa using fun name text member => others (name, text) member
      simp [Sources.text, later]
    · have none : sources.reverse.find? (·.1 = fileName) = none := by
        simpa using fun name text member => others (name, text) member
      rw [Sources.text, none]
      rfl
  · rintro rfl
    exact isLast_text sources fileName

theorem held_natCast {n : Nat} (small : n < 2 ^ 64) : Json.Held (.integer n) :=
  .integer (by omega) (by omega)

section Held

variable {results : List LintResult} (sized : Sized results) {result : LintResult}
  (listed : result ∈ results)

include sized listed

theorem Sized.messageJson_held (index : LineIndex) {diagnostic : Diagnostic}
    (member : diagnostic ∈ result.diagnostics) : (messageJson index diagnostic).Held := by
  have start := index.position_lt diagnostic.span.start
  have stop := index.position_lt diagnostic.span.stop
  have severity : Json.Held (.integer (severityNumber diagnostic.severity)) := by
    cases diagnostic.severity <;> exact .integer (by decide) (by decide)
  refine .object ?_
  simp only [List.forall_mem_append, List.forall_mem_cons, List.forall_mem_map]
  refine ⟨⟨.string _, .string _, severity, .string _, held_natCast (by omega), held_natCast (by omega),
    held_natCast (by omega), held_natCast (by omega), by simp⟩, fun fix isFix => ?_⟩
  obtain ⟨least, most⟩ := Fix.range_lt (by decide)
    (sized.offsets result listed diagnostic member fix (Option.mem_toList.mp isFix))
  refine .object ?_
  simp only [List.forall_mem_cons]
  refine ⟨.array ?_, .string _, by simp⟩
  simp only [List.forall_mem_cons]
  exact ⟨held_natCast least, held_natCast most, by simp⟩

theorem Sized.resultJson_held (sources : Sources) : (resultJson sources result).Held := by
  obtain ⟨errors, warnings, diagnostics⟩ := sized.counts result listed
  have fixable (severity : Severity) : fixableCount severity result.diagnostics < 2 ^ 64 := by
    have counted : fixableCount severity result.diagnostics ≤ _ := List.countP_le_length
    have kept := List.length_filter_le (·.fix.isSome) result.diagnostics
    omega
  refine .object ?_
  simp only [List.forall_mem_cons]
  refine ⟨.string _, .array ?_, held_natCast errors, held_natCast warnings,
    held_natCast (fixable .error), held_natCast (fixable .warning), by simp⟩
  simp only [List.forall_mem_map]
  exact fun diagnostic member => sized.messageJson_held listed _ member

end Held

/-! Entries. -/

theorem statedFix?_messageJson (index : LineIndex) (diagnostic : Diagnostic) :
    statedFix? (messageJson index diagnostic) = some (diagnostic.fix.map fun fix =>
      ⟨fix.range.1, fix.range.2, String.join (fix.edits.map (·.newText))⟩) := by
  rw [statedFix?, member?_fix_messageJson]
  cases diagnostic.fix with
  | none => rfl
  | some fix => simp [replacement?_fixJson]

theorem statedText?_messageJson (index : LineIndex) (diagnostic : Diagnostic) :
    statedText? (messageJson index diagnostic) "ruleId" = some diagnostic.rule ∧
      statedText? (messageJson index diagnostic) "messageId" = some diagnostic.messageId ∧
      statedText? (messageJson index diagnostic) "message" = some diagnostic.message ∧
      stated? (messageJson index diagnostic) "severity" =
        some (severityNumber diagnostic.severity) := by
  simp [statedText?, stated?, messageJson, Json.member?, Json.text?, Json.integer?]

theorem message?_messageJson (source : String) (diagnostic : Diagnostic) :
    ∃ message, message? (messageJson (.ofText source.toList) diagnostic) = some message ∧
      Restates source diagnostic message := by
  let index := LineIndex.ofText source.toList
  obtain ⟨rule, messageId, text, severity⟩ := statedText?_messageJson index diagnostic
  obtain ⟨start, stop⟩ := statedPosition?_messageJson index diagnostic
  have fix := statedFix?_messageJson index diagnostic
  refine ⟨⟨diagnostic.rule, diagnostic.messageId, severityNumber diagnostic.severity,
    diagnostic.message, index.position diagnostic.span.start, index.position diagnostic.span.stop, _⟩,
    by rw [message?, rule, messageId, severity, text, start, stop, fix]; rfl, ?_⟩
  exact ⟨rfl, rfl, fun isError => by rw [isError]; rfl, fun isWarning => by rw [isWarning]; rfl,
    rfl, rfl, rfl, rfl⟩

theorem exists_messages (source : String) (diagnostics : List Diagnostic) :
    ∃ messages, (diagnostics.map (messageJson (.ofText source.toList))).mapM message? = some messages ∧
      List.Forall₂ (Restates source) diagnostics messages := by
  induction diagnostics with
  | nil => exact ⟨[], rfl, .nil⟩
  | cons diagnostic rest ih =>
    obtain ⟨message, read, restates⟩ := message?_messageJson source diagnostic
    obtain ⟨messages, others, restate⟩ := ih
    exact ⟨message :: messages, by simp [read, others], .cons restates restate⟩

theorem fileResult?_resultJson (sources : Sources) (result : LintResult) :
    ∃ entry, fileResult? (resultJson sources result) = some entry ∧ Records sources result entry := by
  obtain ⟨errors, warnings, fixableErrors, fixableWarnings⟩ := stated_resultJson sources result
  have fileName : statedText? (resultJson sources result) "filePath" = some result.fileName := by
    simp [statedText?, resultJson, Json.member?, Json.text?]
  obtain ⟨shown, read, restate⟩ := exists_messages (sources.text result.fileName) result.diagnostics
  rw [← messages_resultJson] at read
  have fixable (severity : Severity) : fixableCount severity result.diagnostics =
      result.diagnostics.countP fun diagnostic =>
        diagnostic.severity = severity ∧ diagnostic.fix.isSome := by
    rw [fixableCount, Severity.count, List.countP_filter]
    simp
  refine ⟨⟨result.fileName, shown, _, _, _, _⟩, by
    rw [fileResult?, fileName, read, errors, warnings, fixableErrors, fixableWarnings]; rfl, ?_⟩
  exact ⟨rfl, rfl, rfl, congrArg Nat.cast (fixable .error), congrArg Nat.cast (fixable .warning), _,
    isLast_text sources result.fileName, restate⟩

/-- The JSON report is read back without loss. Its text is one array with an object for each
result. -/
theorem report_reads_back {results : List LintResult} (sources : Sources) (sized : Sized results) :
    ∃ values, Json.parse? (json results sources) = some (.array values) ∧
      List.Forall₂ (fun result value => ∃ entry, fileResult? value = some entry ∧
        Records sources result entry) results values := by
  refine ⟨_, Json.parse?_pretty (.array ?_), ?_⟩
  · simp only [List.forall_mem_map]
    exact fun result listed => sized.resultJson_held listed sources
  · rw [List.forall₂_map_right_iff, List.forall₂_same]
    exact fun result _ => fileResult?_resultJson sources result

/-- Quotes, a backslash, a line feed, a control character and a wide character in the texts, and two
texts under the name of the file, of which the last has the diagnostic on its second line. -/
theorem report_reads_back_escapes :
    let name := "\"\\\n\x01é.jsx"
    let result : LintResult := ⟨name, [⟨"\\u", "\x7f", .warning, "\t\"", ⟨1, 2⟩,
      some ⟨"", [.insert 1 "\r\x08/"]⟩⟩], 3, 1⟩
    ∃ value entry message, Json.parse? (json [result] [(name, "ab"), (name, "\nb")]) =
        some (.array [value]) ∧
      fileResult? value = some entry ∧ entry.fileName = name ∧ entry.errors = 3 ∧
      entry.fixableWarnings = 1 ∧ entry.messages = [message] ∧ message.rule = "\\u" ∧
      message.text = "\t\"" ∧ message.start = ⟨2, 1⟩ ∧ message.fix = some ⟨1, 1, "\r\x08/"⟩ := by
  intro name result
  obtain ⟨values, parsed, each⟩ := @report_reads_back [result] [(name, "ab"), (name, "\nb")]
    ⟨by decide +kernel, by decide +kernel⟩
  obtain ⟨value, _, ⟨entry, read, records⟩, rest, rfl⟩ := List.forall₂_cons_left_iff.mp each
  cases rest
  obtain ⟨text, last, restate⟩ := records.messages
  obtain ⟨message, _, restates, rest, shown⟩ := List.forall₂_cons_left_iff.mp restate
  cases rest
  refine ⟨value, entry, message, parsed, read, records.fileName, records.errors, ?_, shown,
    restates.rule, restates.text, ?_, ?_⟩
  · rw [records.fixableWarnings]
    decide
  · rw [restates.start, ← isLast_iff.mp last]
    decide +kernel
  · rw [restates.fix]
    decide +kernel

end Report

end ClientBoundary
