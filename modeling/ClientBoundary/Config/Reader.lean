import ClientBoundary.Config
import ClientBoundary.Json.Draft
import ClientBoundary.Text.Quoted

/-! Settings from JSON. A record may be written as an object, or as an array of its fields in their
order. A document is judged from its front to its end, and the first thing wrong decides. -/
namespace ClientBoundary.Config

open Json (Draft Fault)

inductive Misfit where
  | unknownField (name : String) (known : List String)
  | repeatedField (name : String)
  | unknownSetting (name : String) (known : List String)
  | wrongType (got expected : String)
  deriving DecidableEq, Repr

inductive Refusal where
  | text (fault : Fault)
  | content (misfit : Misfit)
  deriving DecidableEq, Repr

abbrev Reading := Except Refusal

def codeQuoted (name : String) : String := "\x60" ++ name ++ "\x60"

def oneOf (names : List String) : String :=
  "expected one of " ++ ", ".intercalate (names.map codeQuoted)

def Misfit.message : Misfit → String
  | .unknownField name known => "unknown field " ++ codeQuoted name ++ ", " ++ oneOf known
  | .repeatedField name => "duplicate field " ++ codeQuoted name
  | .unknownSetting name known => "unknown variant " ++ codeQuoted name ++ ", " ++ oneOf known
  | .wrongType got expected => "invalid type: " ++ got ++ ", expected " ++ expected

def fail (fault : Fault) : Reading α := .error (.text fault)

def misfit (misfit : Misfit) : Reading α := .error (.content misfit)

/-- Digits without zeros at their end, and how many there were. -/
def withoutFinalZeros (digits : List Char) : List Char × Nat :=
  let kept := (digits.reverse.dropWhile (· = '0')).reverse
  (kept, digits.length - kept.length)

/-- A number with a point: positional from five places after it up to sixteen before it, else with
an exponent. -/
def decimalText (negative : Bool) (digits : Nat) (exponent : Int) : String :=
  let sign := if negative then "-" else ""
  if digits = 0 then sign ++ "0.0"
  else
    let (kept, zeros) := withoutFinalZeros (Nat.toDigits 10 digits)
    let exponent := exponent + zeros
    let point : Int := kept.length + exponent
    let text :=
      if 0 ≤ exponent && point ≤ 16 then
        kept ++ List.replicate exponent.toNat '0' ++ ['.', '0']
      else if 0 < point && point ≤ 16 then
        kept.take point.toNat ++ ['.'] ++ kept.drop point.toNat
      else if -5 < point && point ≤ 0 then
        ['0', '.'] ++ List.replicate (-point).toNat '0' ++ kept
      else
        let front := if kept.length = 1 then kept else kept.take 1 ++ ['.'] ++ kept.drop 1
        front ++ ['e'] ++ (toString (point - 1)).toList
    sign ++ String.ofList text

/-- A value by its type, as messages name it. -/
def describe : Draft → Reading String
  | .null => pure "null"
  | .boolean value => pure ("boolean " ++ codeQuoted (if value then "true" else "false"))
  | .number (some (.integer value)) => pure ("integer " ++ codeQuoted (toString value))
  | .number (some (.decimal negative digits exponent)) =>
    pure ("floating point " ++ codeQuoted (decimalText negative digits exponent))
  | .number none => fail .malformed
  | .string (some text) => pure ("string " ++ Text.quoted text)
  | .string none => fail .malformed
  | .array _ _ => pure "sequence"
  | .object _ _ => pure "map"
  | .broken fault => fail fault.whenRead

def refuse (draft : Draft) (expected : String) : Reading α := do
  misfit (.wrongType (← describe draft) expected)

/-- Goes on unless the text went wrong here. -/
def checkEnd : Option Json.Break → Reading Unit
  | some fault => fail fault.whenRead
  | none => pure ()

def skip (draft : Draft) : Reading Unit :=
  match draft.skipFault with
  | some fault => fail fault
  | none => pure ()

def keyText : Option String → Reading String
  | some key => pure key
  | none => fail .malformed

/-- A record: its fields in order, each with how its value changes what is being read. -/
structure Record (α : Type) where
  name : String
  fields : List (String × (Draft → α → Reading α))
  /-- Whether other fields are let pass. -/
  isOpen : Bool

namespace Record

def field? (record : Record α) (key : String) : Option (Draft → α → Reading α) :=
  (record.fields.find? (·.1 = key)).map (·.2)

def readMembers (record : Record α) :
    List String → List (Option String × Draft) → α → Reading α
  | _, [], value => pure value
  | seen, (key, draft) :: rest, value => do
    let key ← keyText key
    match record.field? key with
    | some change =>
      if seen.contains key then misfit (.repeatedField key)
      else readMembers record (key :: seen) rest (← change draft value)
    | none =>
      if record.isOpen then do
        skip draft
        readMembers record seen rest value
      else misfit (.unknownField key (record.fields.map (·.1)))

/-- The items of an array, one for each field as far as they go. -/
def readItems : List (String × (Draft → α → Reading α)) → List Draft → Option Json.Break → α →
    Reading α
  | _, [], fault, value => do
    checkEnd fault
    return value
  | [], _ :: _, _, _ => fail .malformed
  | (_, change) :: fields, draft :: rest, fault, value => do
    readItems fields rest fault (← change draft value)

def read (record : Record α) (draft : Draft) (value : α) : Reading α :=
  match draft with
  | .object members fault => do
    let value ← record.readMembers [] members value
    checkEnd fault
    return value
  | .array items fault => readItems record.fields items fault value
  | other => refuse other ("struct " ++ record.name)

end Record

def readOptionalText : Draft → Reading (Option String)
  | .null => pure none
  | .string (some text) => pure (some text)
  | other => refuse other "a string"

def settingNames : List String := ["off", "warn", "warning", "error"]

def settingOf : String → Reading RuleSetting
  | "off" => pure .off
  | "warn" | "warning" => pure .warn
  | "error" => pure .error
  | other => misfit (.unknownSetting other settingNames)

/-- A setting is its name, or an object with the name as its only key and nothing as the value. -/
def readSetting : Draft → Reading RuleSetting
  | .string (some name) => settingOf name
  | .object [] fault => do
    checkEnd fault
    fail .malformed
  | .object ((key, value) :: rest) fault => do
    let setting ← settingOf (← keyText key)
    match value with
    | .null =>
      match rest, fault with
      | [], none => return setting
      | [], some fault => fail fault.whenChosen
      | _ :: _, _ => fail .malformed
    | other => refuse other "unit"
  | .broken fault => fail fault.whenChosen
  | _ => fail .malformed

def readRuleMembers :
    List (Option String × Draft) → List (String × RuleSetting) → Reading (List (String × RuleSetting))
  | [], rules => pure rules
  | (key, draft) :: rest, rules => do
    let key ← keyText key
    readRuleMembers rest (rules ++ [(key, ← readSetting draft)])

def readRules : Draft → Reading (List (String × RuleSetting))
  | .object members fault => do
    let rules ← readRuleMembers members []
    checkEnd fault
    return rules
  | other => refuse other "a map"

def librarySettings : Record Config where
  name := "ReactSettings"
  fields := [("pragma", fun draft config => do return { config with pragma := ← readOptionalText draft })]
  isOpen := true

def sharedSettings : Record Config where
  name := "Settings"
  fields := [("react", librarySettings.read)]
  isOpen := true

def document : Record Config where
  name := "LintConfig"
  fields := [
    ("$schema", fun draft config => do return { config with schema := ← readOptionalText draft }),
    ("rules", fun draft config => do return { config with rules := ← readRules draft }),
    ("settings", sharedSettings.read)]
  isOpen := false

def ofDraft (draft : Draft) : Reading Config := document.read draft {}

/-- Settings from the text of a file, which holds nothing else. -/
def ofText (text : String) : Reading Config := do
  let (draft, rest) := Draft.read text.toList
  let config ← ofDraft draft
  match rest with
  | some rest => if (Draft.skipBlank rest).isEmpty then return config else fail .malformed
  | none => fail .malformed

end ClientBoundary.Config
