import ClientBoundary.Cli.Arguments

/-! What the program says about itself. -/
namespace ClientBoundary.Cli

def programName : String := "rsc-lint"

def versionLine : String := programName ++ " 0.3.0\n"

def Topic.about : Topic → String
  | .program => "Keep React Server Component boundaries honest"
  | .lint => "Lint JavaScript/TypeScript modules (default command)"

def Topic.usage : Topic → String
  | .program => programName ++ " [OPTIONS] [COMMAND]"
  | .lint => programName ++ " lint [OPTIONS] [PATTERNS]..."

/-- A heading and entries under it, each with what it is for. -/
structure HelpTable where
  heading : String
  entries : List (String × String)

def Topic.tables : Topic → List HelpTable
  | .program =>
    [{ heading := "Commands"
       entries :=
        [("lint", "Lint JavaScript/TypeScript modules (default command)"),
          ("help", "Print this message or the help of the given subcommand(s)")] },
      { heading := "Options"
        entries :=
          [("-V, --version", "Print version"),
            ("    --verbose", "Enable debug logging on stderr"),
            ("-h, --help", "Print help")] }]
  | .lint =>
    [{ heading := "Arguments"
       entries := [("[PATTERNS]...", "Files, directories or glob patterns to lint [default: .]")] },
      { heading := "Options"
        entries :=
          [("    --fix", "Automatically fix problems and write the result back"),
            ("-c, --config <CONFIG>", "Config file path (defaults to ./rsc-lint.config.json)"),
            ("    --verbose", "Enable debug logging on stderr"),
            ("-f, --format <FORMAT>",
              "Output format [default: text] [possible values: text, json]"),
            ("    --max-warnings <MAX_WARNINGS>", "Maximum number of warnings before failing"),
            ("-q, --quiet", "Quiet mode - only report errors"),
            ("-h, --help", "Print help")] }]

/-- The entries stand in two columns. -/
def HelpTable.text (table : HelpTable) : String :=
  let width := (table.entries.map (·.1.length)).foldl max 0
  let line := fun ((entry, purpose) : String × String) =>
    "  " ++ entry.pushn ' ' (width - entry.length) ++ "  " ++ purpose ++ "\n"
  "\n" ++ table.heading ++ ":\n" ++ String.join (table.entries.map line)

def Topic.helpText (topic : Topic) : String :=
  topic.about ++ "\n\nUsage: " ++ topic.usage ++ "\n" ++ String.join (topic.tables.map (·.text))

end ClientBoundary.Cli
