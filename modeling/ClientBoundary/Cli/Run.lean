import ClientBoundary.Cli.Help
import ClientBoundary.Cli.Note
import ClientBoundary.Config.Reader
import ClientBoundary.Files.Collect

/-! A run of the command line over a working directory: files are read, fixed if asked for, linted
one after the other, and reported. -/
namespace ClientBoundary.Cli

/-- The settings that a file gives a run. A file that cannot be used is noted; none is looked for
but the one that is named or has the usual name. -/
def loadConfig (folder : String) (named : Option String) (tree : FileTree) :
    Option Config × List Note :=
  let place := named.getD Config.fileName
  let shown := named.getD (PathName.join folder Config.fileName)
  match tree.lookup? place with
  | none => (none, if named.isSome then [.unreadableConfig shown] else [])
  | some (.folder _) => (none, [.unreadableConfig shown])
  | some (.file file) =>
    match file.contents with
    | .binary _ => (none, [.unreadableConfig shown])
    | .text text =>
      match Config.ofText text with
      | .ok config => (some config, [])
      | .error _ => (none, [.refusedConfig shown])

/-- A text that it was tried to write to a file. -/
structure WriteAttempt where
  path : String
  text : String
  succeeded : Bool
  deriving DecidableEq, Repr

/-- What comes of one file: the text that was linted and the result, unless it cannot be read. -/
structure FileOutcome where
  tree : FileTree
  result : Option (String × Except LintError LintResult)
  attempts : List WriteAttempt := []
  notes : List Note := []
  /-- What is said only when asked for. -/
  trace : List Note := []

def lintNote (registry : Registry) (path source : String) : Note :=
  match registry.lintModule source path with
  | .ok result => .linted path registry.length result.diagnostics.length
  | .error _ => .skipped path

def fixNotes (registry : Registry) (path : String) (passes : List FixPass) : List Note :=
  passes.zipIdx.flatMap fun (pass, number) =>
    lintNote registry path pass.source :: if pass.applied then [.applied path number] else []

def lintHeld (registry : Registry) (tree : FileTree) (path source : String) : FileOutcome where
  tree := tree
  result := some (source, registry.lintModule source path)
  trace := [lintNote registry path source]

/-- Puts the fixed text of a file in its place and lints what the file holds then. It is written
only if it differs. -/
def lintFixed (registry : Registry) (tree : FileTree) (path source fixed : String) : FileOutcome :=
  if fixed = source then lintHeld registry tree path source
  else match tree.write? path fixed with
    | some tree =>
      let outcome := lintHeld registry tree path fixed
      { outcome with attempts := [⟨path, fixed, true⟩], trace := .wrote path :: outcome.trace }
    | none =>
      { lintHeld registry tree path source with
        attempts := [⟨path, fixed, false⟩], notes := [.unwritable path] }

def lintFile (registry : Registry) (fix : Bool) (tree : FileTree) (path : String) : FileOutcome :=
  match (tree.file? path).bind (·.contents.text?) with
  | none => { tree, result := none, notes := [.unreadable path] }
  | some source =>
    if fix then
      let fixing := registry.fixing path maxFixPasses source
      let outcome : FileOutcome := match fixing.outcome with
        | .error cause => { tree, result := some (source, .error cause) }
        | .ok fixed => lintFixed registry tree path source fixed
      { outcome with trace := fixNotes registry path fixing.passes ++ outcome.trace }
    else lintHeld registry tree path source

/-- A run as far as it has come: results with the texts they are about, and totals. -/
structure Progress where
  tree : FileTree
  results : List (String × LintResult) := []
  errors : Nat := 0
  warnings : Nat := 0
  notes : List Note := []

/-- Adds a file. A module that does not parse counts as one error. -/
def Progress.add (registry : Registry) (fix : Bool) (progress : Progress) (path : String) :
    Progress :=
  let outcome := lintFile registry fix progress.tree path
  let progress := { progress with tree := outcome.tree, notes := progress.notes ++ outcome.notes }
  match outcome.result with
  | none => progress
  | some (source, .ok result) =>
    { progress with
      results := progress.results ++ [(source, result)]
      errors := progress.errors + result.errors
      warnings := progress.warnings + result.warnings }
  | some (_, .error (.parse fileName)) =>
    { progress with
      errors := progress.errors + 1
      notes := progress.notes ++ [.unparsable fileName] }

def lintAll (registry : Registry) (fix : Bool) (tree : FileTree) (paths : List String) : Progress :=
  paths.foldl (Progress.add registry fix) { tree }

def traceNotes (loaded : Option Config) (options : Options) (tree : FileTree) (paths : List String) :
    List Note :=
  let registry := (loaded.getD {}).registry
  loaded.toList.map (fun config => .loadedConfig (config.rules.map (·.1)).eraseDups.length) ++
    .linting paths.length registry.length ::
      paths.flatMap (lintFile registry options.fix tree · |>.trace)

/-- What a run leaves behind. The last line tells the time it took, which is filled in outside. -/
structure RunOutcome where
  exitCode : Nat
  output : String := ""
  timedLine : Option String := none
  notes : List Note := []
  tree : FileTree

/-- A result as it is shown; quietly only its errors are. -/
def shownResult (quiet : Bool) (result : LintResult) : LintResult :=
  if quiet then { result with diagnostics := result.diagnostics.filter (·.severity = .error) }
  else result

def reportOf (options : Options) (results : List (String × LintResult)) : String :=
  Report.render options.format (results.map (shownResult options.quiet ·.2))
    (results.map fun (source, result) => (result.fileName, source))

def exitCode (options : Options) (errors warnings : Nat) : Nat :=
  if 0 < errors || options.maxWarnings.any (· < warnings) then 1 else 0

def limitNotes (options : Options) (errors warnings : Nat) : List Note :=
  match options.maxWarnings with
  | some limit =>
    if errors = 0 && limit < warnings then [.tooManyWarnings warnings limit] else []
  | none => []

def lint (folder : String) (verbose : Bool) (options : Options) (tree : FileTree) : RunOutcome :=
  let paths := Files.collect tree options.patterns
  if paths.isEmpty then { exitCode := 0, notes := [.noFiles options.patterns], tree }
  else
    let (loaded, configNotes) := loadConfig folder options.config tree
    let registry := (loaded.getD {}).registry
    let progress := lintAll registry options.fix tree paths
    let report := reportOf options progress.results
    let isShown := options.format = .json || !report.toList.all Char.isWhitespace
    let shown := if isShown then report else ""
    let summary := Report.summary progress.errors progress.warnings paths.length
    let isText := options.format = .text
    { exitCode := exitCode options progress.errors progress.warnings
      output := if isText then shown ++ "\n" ++ summary ++ "\n" else shown
      timedLine := if isText then some ("Linted " ++ toString paths.length ++ " files in ") else none
      notes := configNotes ++ progress.notes ++
        limitNotes options progress.errors progress.warnings ++
        if verbose then traceNotes loaded options tree paths else []
      tree := progress.tree }

def run (folder : String) (words : List String) (tree : FileTree) : RunOutcome :=
  match command? false words with
  | none => { exitCode := 2, tree }
  | some .version => { exitCode := 0, output := versionLine, tree }
  | some (.help topic) => { exitCode := 0, output := topic.helpText, tree }
  | some (.lint verbose options) => lint folder verbose options tree

end ClientBoundary.Cli
