import ClientBoundary.Text.Quoted

/-! Things said on the side of a run, and how they are put. -/
namespace ClientBoundary.Cli

inductive Note where
  | noFiles (patterns : List String)
  | unreadable (path : String)
  | unwritable (path : String)
  | unreadableConfig (path : String)
  | refusedConfig (path : String)
  | unparsable (path : String)
  | tooManyWarnings (warnings limit : Nat)
  -- said only when asked for
  | loadedConfig (rules : Nat)
  | linting (files rules : Nat)
  | linted (path : String) (rules diagnostics : Nat)
  | skipped (path : String)
  | applied (path : String) (pass : Nat)
  | wrote (path : String)
  deriving DecidableEq, Repr

/-- What a name and a value look like in a log. -/
def logged (name value : String) : String := " " ++ name ++ "=" ++ value

def fallBack : String := "; falling back to default config"

def Note.text : Note → String
  | .noFiles patterns => "No files found matching patterns: " ++ Text.quotedList patterns
  | .unreadable path => "WARN rsc_lint::commands::lint: failed to read " ++ path
  | .unwritable path => "WARN rsc_lint::commands::lint: failed to write " ++ path
  | .unreadableConfig path => "WARN rsc_lint::config: Failed to read " ++ path ++ fallBack
  | .refusedConfig path => "WARN rsc_lint::config: Failed to parse " ++ path ++ fallBack
  | .unparsable path => "Failed to parse " ++ path
  | .tooManyWarnings warnings limit =>
    "Too many warnings (" ++ toString warnings ++ " > max " ++ toString limit ++ ")"
  | .loadedConfig rules => "DEBUG rsc_lint::config: loaded config" ++ logged "rules" (toString rules)
  | .linting files rules =>
    "DEBUG rsc_lint::commands::lint: linting" ++ logged "files" (toString files) ++
      logged "rules" (toString rules)
  | .linted path rules diagnostics =>
    "DEBUG rsc_lint::linter: linted module" ++ logged "filename" (Text.quoted path) ++
      logged "rules" (toString rules) ++ logged "diagnostics" (toString diagnostics)
  | .skipped path =>
    "DEBUG rsc_lint::linter: skipping module with parse errors" ++
      logged "filename" (Text.quoted path) ++ logged "errors" "1"
  | .applied path pass =>
    "DEBUG rsc_lint::linter: applied fixes" ++ logged "filename" (Text.quoted path) ++
      logged "pass" (toString pass)
  | .wrote path => "DEBUG rsc_lint::commands::lint: wrote fixes" ++ logged "file" path

end ClientBoundary.Cli
