import ClientBoundary.Report.Format

/-! The words of a command line. -/
namespace ClientBoundary.Cli

structure Options where
  patterns : List String := ["."]
  fix : Bool := false
  config : Option String := none
  format : ReportFormat := .text
  maxWarnings : Option Nat := none
  quiet : Bool := false
  deriving DecidableEq, Repr

inductive Topic where
  | program
  | lint
  deriving DecidableEq, Repr

inductive Command where
  | version
  | help (topic : Topic)
  | lint (verbose : Bool) (options : Options)
  deriving DecidableEq, Repr

/-- What has been given so far; every option can be given once. -/
structure Given where
  patterns : List String := []
  fix : Bool := false
  config : Option String := none
  format : Option ReportFormat := none
  maxWarnings : Option Nat := none
  quiet : Bool := false
  verbose : Bool := false
  help : Bool := false

inductive Switch where
  | fix
  | quiet
  | verbose
  | help

inductive Setting where
  | config
  | format
  | maxWarnings

def Given.turnOn (given : Given) : Switch → Option Given
  | .fix => if given.fix then none else some { given with fix := true }
  | .quiet => if given.quiet then none else some { given with quiet := true }
  | .verbose => if given.verbose then none else some { given with verbose := true }
  | .help => some { given with help := true }

/-- A count that fits into 64 bits. -/
def count? (text : String) : Option Nat :=
  let digits := match text.toList with
    | '+' :: rest => rest
    | digits => digits
  if digits.isEmpty || !digits.all Char.isDigit then none
  else
    let value := digits.foldl (fun value c => value * 10 + (c.toNat - '0'.toNat)) 0
    if value < Nat.pow 2 64 then some value else none

def format? : String → Option ReportFormat
  | "text" => some .text
  | "json" => some .json
  | _ => none

def Given.set (given : Given) (value : String) : Setting → Option Given
  | .config =>
    if given.config.isSome || value.isEmpty then none else some { given with config := some value }
  | .format =>
    if given.format.isSome then none
    else (format? value).map fun format => { given with format := some format }
  | .maxWarnings =>
    if given.maxWarnings.isSome then none
    else (count? value).map fun count => { given with maxWarnings := some count }

def longOption? : String → Option (Switch ⊕ Setting)
  | "--fix" => some (.inl .fix)
  | "--quiet" => some (.inl .quiet)
  | "--verbose" => some (.inl .verbose)
  | "--help" => some (.inl .help)
  | "--config" => some (.inr .config)
  | "--format" => some (.inr .format)
  | "--max-warnings" => some (.inr .maxWarnings)
  | _ => none

def shortOption? : Char → Option (Switch ⊕ Setting)
  | 'q' => some (.inl .quiet)
  | 'h' => some (.inl .help)
  | 'c' => some (.inr .config)
  | 'f' => some (.inr .format)
  | _ => none

def isOption (word : String) : Bool := word.startsWith "-" && word ≠ "-"

/-- What a word with options comes to: settings that still want a value take the next word. -/
inductive Outcome where
  | done (given : Given)
  | wants (given : Given) (setting : Setting)

/-- Single letters behind one dash. A setting takes the rest of the word, if there is one. -/
def letters (given : Given) : List Char → Option Outcome
  | [] => some (.done given)
  | c :: rest => do
    match ← shortOption? c with
    | .inl switch => letters (← given.turnOn switch) rest
    | .inr setting =>
      match rest with
      | [] => some (.wants given setting)
      | '=' :: value => (given.set (String.ofList value) setting).map .done
      | value => (given.set (String.ofList value) setting).map .done

/-- A word with two dashes, which may hold its value. -/
def longWord (given : Given) (word : String) : Option Outcome := do
  let name := word.toList.takeWhile (· ≠ '=')
  let value := word.toList.drop name.length
  match ← longOption? (String.ofList name), value with
  | .inl switch, [] => (given.turnOn switch).map .done
  | .inl _, _ :: _ => none
  | .inr setting, [] => some (.wants given setting)
  | .inr setting, _ :: value => (given.set (String.ofList value) setting).map .done

def optionWord (given : Given) (word : String) : Option Outcome :=
  if word.startsWith "--" then longWord given word else letters given (word.toList.drop 1)

/-- The words behind the name of the command. -/
def lintWords (given : Given) (wanted : Option Setting) : List String → Option Given
  | [] => if wanted.isSome then none else some given
  | word :: rest =>
    match wanted with
    | some setting =>
      if isOption word then none
      else (given.set word setting).bind (lintWords · none rest)
    | none =>
      if word = "--" then some { given with patterns := given.patterns ++ rest }
      else if isOption word then do
        match ← optionWord given word with
        | .done given => if given.help then some given else lintWords given none rest
        | .wants given setting => lintWords given (some setting) rest
      else lintWords { given with patterns := given.patterns ++ [word] } none rest

def Given.command (given : Given) (verbose : Bool) : Command :=
  if given.help then .help .lint
  else .lint (verbose || given.verbose) {
    patterns := if given.patterns.isEmpty then ["."] else given.patterns
    fix := given.fix
    config := given.config
    format := given.format.getD .text
    maxWarnings := given.maxWarnings
    quiet := given.quiet }

def topic? : List String → Option Topic
  | [] => some .program
  | ["lint"] => some .lint
  | _ => none

/-- The command that words make; nothing if they make none. -/
def command? (verbose : Bool) : List String → Option Command
  | [] => some (.lint verbose {})
  | word :: rest =>
    if word = "lint" then (lintWords {} none rest).map (·.command verbose)
    else if word = "--verbose" then if verbose then none else command? true rest
    else if word = "--version" || word.startsWith "-V" then some .version
    else if word = "--help" || word.startsWith "-h" then some (.help .program)
    else if word = "help" then (topic? rest).map .help
    else if word = "--" && rest.isEmpty then some (.lint verbose {})
    else none

end ClientBoundary.Cli
