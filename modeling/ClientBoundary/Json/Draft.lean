import ClientBoundary.Json.Value
import ClientBoundary.Text.Bytes

/-! JSON texts as they are read. A text that goes wrong is kept up to there, with the fault where it
is, so that whoever looks through it from the front comes upon its own complaints and the faults of
the text in the order in which they stand. -/
namespace ClientBoundary.Json

inductive Fault where
  | malformed
  | endsEarly
  deriving DecidableEq, Repr

/-- A place where a text goes wrong. What is wrong there may depend on what was wanted: reading a
value takes a closer look than skipping it. Where only a string or an object with one member will
do, the first character of anything else is enough, and so is a comma behind the member. -/
structure Break where
  whenRead : Fault
  whenSkipped : Fault
  whenChosen : Fault
  deriving DecidableEq, Repr

def Break.of (fault : Fault) : Break := ⟨fault, fault, fault⟩

def Break.afterComma (fault : Break) : Break := { fault with whenChosen := .malformed }

/-- Integers that fit into 64 bits are told from other numbers, which are kept in decimal. -/
inductive Number where
  | integer (value : Int)
  | decimal (negative : Bool) (digits : Nat) (exponent : Int)
  deriving DecidableEq, Repr

inductive Draft where
  | null
  | boolean (value : Bool)
  /-- A number; nothing if it is too large to be held. -/
  | number (value : Option Number)
  /-- A string; nothing if it has half of a surrogate pair in it and so spells no text. -/
  | string (text : Option String)
  | array (items : List Draft) (fault : Option Break)
  | object (members : List (Option String × Draft)) (fault : Option Break)
  | broken (fault : Break)
  deriving Repr

namespace Draft

def isJsonBlank (c : Char) : Bool := c = ' ' || c = '\n' || c = '\t' || c = '\r'

def skipBlank (text : List Char) : List Char := text.dropWhile isJsonBlank

def hexValue? (c : Char) : Option Nat :=
  if '0' ≤ c ∧ c ≤ '9' then some (c.toNat - '0'.toNat)
  else if 'a' ≤ c ∧ c ≤ 'f' then some (c.toNat - 'a'.toNat + 10)
  else if 'A' ≤ c ∧ c ≤ 'F' then some (c.toNat - 'A'.toNat + 10)
  else none

def hexValues? (digits : List Char) : Option Nat :=
  digits.foldlM (fun value c => (hexValue? c).map (value * 16 + ·)) 0

def simpleEscape? : Char → Option Char
  | '\x22' => some '\x22'
  | '\\' => some '\\'
  | '/' => some '/'
  | 'b' => some '\x08'
  | 'f' => some '\x0c'
  | 'n' => some '\n'
  | 'r' => some '\r'
  | 't' => some '\t'
  | _ => none

def isHighSurrogate (value : Nat) : Bool := 0xD800 ≤ value && value < 0xDC00

def isLowSurrogate (value : Nat) : Bool := 0xDC00 ≤ value && value < 0xE000

/-- Whether a text ends before an escape of four digits is complete. -/
def endsInEscape : List Char → Bool
  | [] => true
  | '\\' :: rest => rest.isEmpty || (rest.head? = some 'u' && Text.byteLength rest < 5)
  | _ => false

/-- A string after its opening quote: its text and what follows. The characters so far are in
reverse; they are gone once the string cannot spell a text. A high half of a surrogate pair waits
for the low one. -/
def stringBody (soFar : Option (List Char)) (high : Option Nat) :
    List Char → Except Break (Option String × List Char)
  | [] => .error ⟨if soFar.isNone then .malformed else .endsEarly, .endsEarly, .endsEarly⟩
  | '\x22' :: rest =>
    .ok (if high.isSome then none else soFar.map (String.ofList ·.reverse), rest)
  | '\\' :: 'u' :: a :: b :: c :: d :: rest =>
    match hexValues? [a, b, c, d] with
    | none => .error (.of .malformed)
    | some value =>
      match high with
      | some first =>
        if isLowSurrogate value then
          let c := Char.ofNat (0x10000 + (first - 0xD800) * 0x400 + (value - 0xDC00))
          stringBody (soFar.map (c :: ·)) none rest
        else stringBody none none rest
      | none =>
        if isHighSurrogate value then
          if endsInEscape rest then stringBody soFar none rest else stringBody soFar (some value) rest
        else if isLowSurrogate value then stringBody none none rest
        else stringBody (soFar.map (Char.ofNat value :: ·)) none rest
  | '\\' :: c :: rest =>
    let soFar := if high.isSome then none else soFar
    if c = 'u' then
      .error (.of (if Text.byteLength rest < 4 then .endsEarly else .malformed))
    else match simpleEscape? c with
      | some c => stringBody (soFar.map (c :: ·)) none rest
      | none => .error (.of .malformed)
  | c :: rest =>
    let soFar := if high.isSome then none else soFar
    if c.toNat < 0x20 then .error (.of .malformed)
    else stringBody (soFar.map (c :: ·)) none rest

/-- A number that ends with the text is cut off only for whoever reads it. -/
def cutNumber (rest : List Char) : Break :=
  ⟨if rest.isEmpty then .endsEarly else .malformed, .malformed, .malformed⟩

def natValue (digits : List Char) : Nat :=
  digits.foldl (fun value c => value * 10 + (c.toNat - '0'.toNat)) 0

/-- The first number that is too large to be held: it would round past the largest one. -/
def tooLarge : Nat := Nat.pow 2 1024 - Nat.pow 2 970

/-- Whether `digits` times a power of ten can be held. Much larger exponents need no computing. -/
def isHeld (digits : Nat) (exponent : Int) : Bool :=
  digits = 0 || exponent ≤ 0 || (exponent < 400 && digits * Nat.pow 10 exponent.toNat < tooLarge)

def wholeNumber (negative : Bool) (digits : Nat) : Number :=
  if negative then
    if digits = 0 || Nat.pow 2 63 < digits then .decimal true digits 0 else .integer (-digits)
  else if digits < Nat.pow 2 64 then .integer digits
  else .decimal false digits 0

def exponentPart : List Char → Except Break (Option Int × List Char)
  | c :: rest =>
    if c = 'e' || c = 'E' then
      let (negative, rest) := match rest with
        | '-' :: rest => (true, rest)
        | '+' :: rest => (false, rest)
        | rest => (false, rest)
      let digits := rest.takeWhile Char.isDigit
      let rest := rest.dropWhile Char.isDigit
      if digits.isEmpty then .error (cutNumber rest)
      else
        let value : Int := natValue digits
        .ok (some (if negative then -value else value), rest)
    else .ok (none, c :: rest)
  | [] => .ok (none, [])

def fractionPart : List Char → Except Break (Option (List Char) × List Char)
  | '.' :: rest =>
    let digits := rest.takeWhile Char.isDigit
    let rest := rest.dropWhile Char.isDigit
    if digits.isEmpty then .error (cutNumber rest) else .ok (some digits, rest)
  | rest => .ok (none, rest)

def numberBody (negative : Bool) (text : List Char) : Except Break (Option Number × List Char) := do
  let whole := text.takeWhile Char.isDigit
  let rest := text.dropWhile Char.isDigit
  if whole.isEmpty then throw (cutNumber rest)
  if whole.head? = some '0' && whole.length > 1 then throw (.of .malformed)
  let (fraction, rest) ← fractionPart rest
  let (exponent, rest) ← exponentPart rest
  if fraction.isNone && exponent.isNone then
    let digits := natValue whole
    return (if isHeld digits 0 then some (wholeNumber negative digits) else none, rest)
  let digits := natValue (whole ++ fraction.getD [])
  let exponent := exponent.getD 0 - (fraction.getD []).length
  return (if isHeld digits exponent then some (.decimal negative digits exponent) else none, rest)

def wordBody : List Char → List Char → Except Break (List Char)
  | [], rest => .ok rest
  | _ :: _, [] => .error ⟨.endsEarly, .endsEarly, .malformed⟩
  | expected :: more, c :: rest =>
    if c = expected then wordBody more rest else .error (.of .malformed)

/-- A part that was read, and the text after it unless it broke off. -/
abbrev Progress := Draft × Option (List Char)

def ofResult (make : α → Draft) : Except Break (α × List Char) → Progress
  | .ok (value, rest) => (make value, some rest)
  | .error fault => (.broken fault, none)

def ofWord (draft : Draft) : Except Break (List Char) → Progress
  | .ok rest => (draft, some rest)
  | .error fault => (.broken fault, none)

def breakOf (fault : Fault) : Progress := (.broken (.of fault), none)

mutual

def value : Nat → List Char → Progress
  | 0, _ => breakOf .malformed
  | fuel + 1, text =>
    match skipBlank text with
    | [] => breakOf .endsEarly
    | '\x22' :: rest => ofResult .string (stringBody (some []) none rest)
    | 'n' :: rest => ofWord .null (wordBody ['u', 'l', 'l'] rest)
    | 't' :: rest => ofWord (.boolean true) (wordBody ['r', 'u', 'e'] rest)
    | 'f' :: rest => ofWord (.boolean false) (wordBody ['a', 'l', 's', 'e'] rest)
    | '-' :: rest => ofResult .number (numberBody true rest)
    | '[' :: rest =>
      match skipBlank rest with
      | ']' :: rest => (.array [] none, some rest)
      | [] => (.array [] (some (.of .endsEarly)), none)
      | rest => items fuel [] rest
    | '\x7b' :: rest =>
      match skipBlank rest with
      | '\x7d' :: rest => (.object [] none, some rest)
      | rest => members fuel [] rest
    | c :: rest =>
      if c.isDigit then ofResult .number (numberBody false (c :: rest)) else breakOf .malformed

def items : Nat → List Draft → List Char → Progress
  | 0, soFar, _ => (.array soFar (some (.of .malformed)), none)
  | fuel + 1, soFar, text =>
    match value fuel text with
    | (item, none) => (.array (soFar ++ [item]) none, none)
    | (item, some rest) =>
      let soFar := soFar ++ [item]
      match skipBlank rest with
      | ',' :: rest => items fuel soFar rest
      | ']' :: rest => (.array soFar none, some rest)
      | [] => (.array soFar (some (.of .endsEarly)), none)
      | _ => (.array soFar (some (.of .malformed)), none)

/-- The members of an object from here on. A key without its value is kept: it can be wrong by
itself. -/
def members : Nat → List (Option String × Draft) → List Char → Progress
  | 0, soFar, _ => (.object soFar (some (.of .malformed)), none)
  | fuel + 1, soFar, text =>
    let broken := fun (fault : Break) =>
      (.object soFar (some (if soFar.isEmpty then fault else fault.afterComma)), none)
    match skipBlank text with
    | [] => broken (.of .endsEarly)
    | '\x22' :: rest =>
      match stringBody (some []) none rest with
      | .error fault => broken fault
      | .ok (key, rest) =>
        match skipBlank rest with
        | [] => (.object (soFar ++ [(key, .broken (.of .endsEarly))]) none, none)
        | ':' :: rest =>
          match value fuel rest with
          | (item, none) => (.object (soFar ++ [(key, item)]) none, none)
          | (item, some rest) =>
            let soFar := soFar ++ [(key, item)]
            match skipBlank rest with
            | ',' :: rest => members fuel soFar rest
            | '\x7d' :: rest => (.object soFar none, some rest)
            | [] => (.object soFar (some (.of .endsEarly)), none)
            | _ => (.object soFar (some (.of .malformed)), none)
        | _ => (.object (soFar ++ [(key, .broken (.of .malformed))]) none, none)
    | _ => broken (.of .malformed)

end

/-- Reads the value in front of a text. A level of nesting takes a character and two steps. -/
def read (text : List Char) : Progress := value (2 * text.length + 2) text

mutual

/-- What is wrong with a value that nobody looks at. -/
def skipFault : Draft → Option Fault
  | .broken fault => some fault.whenSkipped
  | .array items fault => (skipFaultOfItems items).or (fault.map (·.whenSkipped))
  | .object members fault => (skipFaultOfMembers members).or (fault.map (·.whenSkipped))
  | _ => none

def skipFaultOfItems : List Draft → Option Fault
  | [] => none
  | item :: rest => (skipFault item).or (skipFaultOfItems rest)

def skipFaultOfMembers : List (Option String × Draft) → Option Fault
  | [] => none
  | (_, item) :: rest => (skipFault item).or (skipFaultOfMembers rest)

end

mutual

/-- The value that a faultless draft with whole numbers is. -/
def value? : Draft → Option Json
  | .null => some .null
  | .boolean value => some (.boolean value)
  | .number (some (.integer value)) => some (.integer value)
  | .string (some text) => some (.string text)
  | .array items none => (valuesOfItems? items).map .array
  | .object members none => (valuesOfMembers? members).map .object
  | _ => none

def valuesOfItems? : List Draft → Option (List Json)
  | [] => some []
  | item :: rest => do return (← value? item) :: (← valuesOfItems? rest)

def valuesOfMembers? : List (Option String × Draft) → Option (List (String × Json))
  | [] => some []
  | (key, item) :: rest => do return (← key, ← value? item) :: (← valuesOfMembers? rest)

end

end Draft

/-- The value that a text is, with nothing but blanks around it. -/
def parse? (text : String) : Option Json :=
  match Draft.read text.toList with
  | (draft, some rest) => if (Draft.skipBlank rest).isEmpty then draft.value? else none
  | (_, none) => none

end ClientBoundary.Json
