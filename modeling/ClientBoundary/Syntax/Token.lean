import ClientBoundary.Syntax.Letter
import ClientBoundary.Text.Span

/-! Tokens. What a character sequence means can depend on the place: a slash divides or opens a
regular expression, a brace closes a block or resumes a template, and text between tags is not
code at all. So a token is read only when the place is known, and it keeps the text from its own
start on, to be read again in another way. -/
namespace ClientBoundary.Syntax

inductive Lexeme where
  | endOfText
  /-- A name or keyword, with escapes decoded. -/
  | word (name : String) (escaped : Bool)
  | privateName (name : String)
  | mark (text : String)
  | string (value : String)
  | number
  /-- A piece of a template up to its end, or up to the next `$` and brace. -/
  | template (closed wellFormed : Bool)
  | regex
  | jsxText
  deriving DecidableEq, Repr

structure Token where
  lexeme : Lexeme
  span : Span
  /-- Whether a line break stands between this token and the one before. -/
  afterBreak : Bool
  /-- The source from the first character of the token on. -/
  text : List Char

namespace Token

/-- What a reader finds: the lexeme, how many bytes it takes, and what follows. -/
abbrev Reading := Lexeme × Nat × List Char

inductive Gap where
  | blank
  | line
  | block

/-- Passes over white space and comments; nothing if a comment is not closed. -/
def skipGap : Gap → Nat → Bool → List Char → Option (Nat × Bool × List Char)
  | .block, _, _, [] => none
  | _, offset, broken, [] => some (offset, broken, [])
  | .block, offset, broken, '*' :: '/' :: rest => skipGap .blank (offset + 2) broken rest
  | .block, offset, broken, c :: rest =>
    skipGap .block (offset + c.utf8Size) (broken || isLineBreak c) rest
  | .line, offset, broken, c :: rest =>
    if isLineBreak c then skipGap .blank (offset + c.utf8Size) true rest
    else skipGap .line (offset + c.utf8Size) broken rest
  | .blank, offset, broken, '/' :: '/' :: rest => skipGap .line (offset + 2) broken rest
  | .blank, offset, broken, '/' :: '*' :: rest => skipGap .block (offset + 2) broken rest
  | .blank, offset, broken, c :: rest =>
    if isLineBreak c then skipGap .blank (offset + c.utf8Size) true rest
    else if isBlank c then skipGap .blank (offset + c.utf8Size) broken rest
    else some (offset, broken, c :: rest)

def hexDigit? (c : Char) : Option Nat :=
  if c.isDigit then some (c.toNat - 48)
  else if 'a' ≤ c && c ≤ 'f' then some (c.toNat - 87)
  else if 'A' ≤ c && c ≤ 'F' then some (c.toNat - 55)
  else none

def isHexDigit (c : Char) : Bool := (hexDigit? c).isSome

/-- The character of a code; half of a surrogate pair has none and stands as a replacement
character. -/
def charOfCode (code : Nat) : Char :=
  if 0xd800 ≤ code && code < 0xe000 then '\ufffd' else Char.ofNat code

def hexValue (digits : List Char) : Nat :=
  digits.foldl (fun value c => value * 16 + (hexDigit? c).getD 0) 0

/-- The code after `\u`: four digits, or any number of them in braces. -/
def unicodeEscape? : List Char → Option (Nat × Nat × List Char)
  | '\x7b' :: rest =>
    let digits := rest.takeWhile isHexDigit
    match rest.drop digits.length with
    | '\x7d' :: after =>
      if digits.isEmpty || 0x10ffff < hexValue digits then none
      else some (hexValue digits, digits.length + 2, after)
    | _ => none
  | a :: b :: c :: d :: rest =>
    if [a, b, c, d].all isHexDigit then some (hexValue [a, b, c, d], 4, rest) else none
  | _ => none

def bytesOf (text : List Char) : Nat := text.foldl (fun size c => size + c.utf8Size) 0

/-- The rest of a name that has escapes in it: its characters in reverse, and its bytes. -/
def escapedName : Nat → List Char → Nat → List Char → Option (List Char × Nat × List Char)
  | 0, _, _, _ => none
  | fuel + 1, read, bytes, text =>
    match text with
    | '\\' :: 'u' :: rest => do
      let (code, size, after) ← unicodeEscape? rest
      let c := charOfCode code
      if isNamePart c then escapedName fuel (c :: read) (bytes + 2 + size) after else none
    | '\\' :: _ => none
    | c :: rest =>
      if isNamePart c then escapedName fuel (c :: read) (bytes + c.utf8Size) rest
      else some (read, bytes, text)
    | [] => some (read, bytes, [])

/-- A name with its bytes, whether it has escapes, and what follows. -/
def name? (text : List Char) : Option (String × Bool × Nat × List Char) :=
  let plain := text.takeWhile isNamePart
  let after := text.drop plain.length
  match after with
  | '\\' :: _ => do
    let (read, bytes, rest) ← escapedName (text.length + 1) [] 0 text
    let letters := read.reverse
    if letters.head?.any isNameStart then some (String.ofList letters, true, bytes, rest) else none
  | _ => if plain.head?.any isNameStart then some (String.ofList plain, false, bytesOf plain, after)
    else none

/-- Digits with single `_` between them; nothing if a `_` is out of place. -/
def digits? (isDigit : Char → Bool) (afterDigit : Bool) (count : Nat) :
    List Char → Option (Nat × List Char)
  | [] => if afterDigit || count == 0 then some (count, []) else none
  | c :: rest =>
    if isDigit c then digits? isDigit true (count + 1) rest
    else if c == '_' then
      if afterDigit then digits? isDigit false (count + 1) rest else none
    else if afterDigit || count == 0 then some (count, c :: rest)
    else none

def someDigits? (isDigit : Char → Bool) (text : List Char) : Option (Nat × List Char) := do
  let (count, rest) ← digits? isDigit false 0 text
  if count = 0 then none else some (count, rest)

def exponent? (count : Nat) : List Char → Option (Nat × List Char)
  | c :: sign :: rest =>
    if c == 'e' || c == 'E' then
      if sign == '+' || sign == '-' then
        (someDigits? Char.isDigit rest).map fun (n, after) => (count + 2 + n, after)
      else (someDigits? Char.isDigit (sign :: rest)).map fun (n, after) => (count + 1 + n, after)
    else some (count, c :: sign :: rest)
  | [c] => if c == 'e' || c == 'E' then none else some (count, [c])
  | [] => some (count, [])

def fraction? (count : Nat) : List Char → Option (Nat × List Char)
  | '.' :: rest => do
    let (n, after) ← digits? Char.isDigit false 0 rest
    exponent? (count + 1 + n) after
  | text => exponent? count text

/-- Whole digits, then a fraction and exponent or the mark of a big integer. -/
def decimal? (text : List Char) : Option (Nat × List Char) := do
  let (count, rest) ← someDigits? Char.isDigit text
  match rest with
  | 'n' :: after => some (count + 1, after)
  | _ => fraction? count rest

def radix? (isDigit : Char → Bool) (text : List Char) : Option (Nat × List Char) := do
  let (count, rest) ← someDigits? isDigit text
  match rest with
  | 'n' :: after => some (count + 3, after)
  | _ => some (count + 2, rest)

def isOctalDigit (c : Char) : Bool := '0' ≤ c && c ≤ '7'

def isBinaryDigit (c : Char) : Bool := c == '0' || c == '1'

def numberLength? : List Char → Option (Nat × List Char)
  | '0' :: c :: rest =>
    if c == 'x' || c == 'X' then radix? isHexDigit rest
    else if c == 'o' || c == 'O' then radix? isOctalDigit rest
    else if c == 'b' || c == 'B' then radix? isBinaryDigit rest
    else if c == '_' then none
    else if c.isDigit then
      -- a leading zero: octal, or decimal if a digit is above seven
      let digits := (c :: rest).takeWhile Char.isDigit
      let after := (c :: rest).drop digits.length
      if digits.all isOctalDigit then some (digits.length + 1, after)
      else fraction? (digits.length + 1) after
    else decimal? ('0' :: c :: rest)
  | '.' :: rest => do
    let (n, after) ← someDigits? Char.isDigit rest
    exponent? (n + 1) after
  | text => decimal? text

/-- A number; neither a name nor a digit may follow at once. -/
def number? (text : List Char) : Option Reading := do
  let (count, rest) ← numberLength? text
  if rest.head?.any fun c => isNameStart c || c.isDigit || c == '\\' then none
  else some (.number, count, rest)

/-- The digits of an octal escape: up to three, of a value below 256. -/
def octalDigits (text : List Char) : List Char :=
  let digits := (text.take 3).takeWhile isOctalDigit
  if digits.length = 3 && !(digits.head?.any (· ≤ '3')) then digits.take 2 else digits

/-- What an escape stands for, and how many characters it takes after the backslash. -/
def escape? : List Char → Option (List Char × Nat)
  | [] => none
  | 'x' :: a :: b :: _ =>
    if isHexDigit a && isHexDigit b then some ([charOfCode (hexValue [a, b])], 3) else none
  | 'u' :: rest => (unicodeEscape? rest).map fun (code, size, _) => ([charOfCode code], size + 1)
  | '\r' :: '\n' :: _ => some ([], 2)
  | c :: rest =>
    if c == 'x' then none
    else if isOctalDigit c then
      let digits := octalDigits (c :: rest)
      let code := digits.foldl (fun value d => value * 8 + (d.toNat - 48)) 0
      some ([Char.ofNat code], digits.length)
    else if isLineBreak c then some ([], 1)
    else if c == 'n' then some (['\n'], 1)
    else if c == 't' then some (['\t'], 1)
    else if c == 'r' then some (['\r'], 1)
    else if c == 'b' then some (['\x08'], 1)
    else if c == 'f' then some (['\x0c'], 1)
    else if c == 'v' then some (['\x0b'], 1)
    else some ([c], 1)

/-- A string up to its closing quote, with escapes decoded: its characters, its bytes with the
quote, and what follows. The first characters, as many as told, belong to an escape. -/
def stringBody? (quote : Char) : Nat → List Char → Option (List Char × Nat × List Char)
  | _, [] => none
  | escaped + 1, c :: rest =>
    (stringBody? quote escaped rest).map fun (cs, n, after) => (cs, n + c.utf8Size, after)
  | 0, c :: rest =>
    if c == '\\' then do
      let (decoded, size) ← escape? rest
      let (cs, n, after) ← stringBody? quote size rest
      return (decoded ++ cs, n + 1, after)
    else if c == quote then some ([], 1, rest)
    else if c == '\n' || c == '\r' then none
    else (stringBody? quote 0 rest).map fun (cs, n, after) => (c :: cs, n + c.utf8Size, after)

/-- The rest of a template piece. An escape that means nothing spoils the piece but does not end
it. -/
def templateBody? (wellFormed : Bool) (bytes : Nat) : List Char → Option Reading
  | [] => none
  | '\x60' :: rest => some (.template true wellFormed, bytes + 1, rest)
  | '$' :: '\x7b' :: rest => some (.template false wellFormed, bytes + 2, rest)
  | '\\' :: '\x60' :: rest => templateBody? wellFormed (bytes + 2) rest
  | '\\' :: '$' :: rest => templateBody? wellFormed (bytes + 2) rest
  | '\\' :: '\\' :: rest => templateBody? wellFormed (bytes + 2) rest
  | '\\' :: c :: rest =>
    let good :=
      if c == 'u' then (unicodeEscape? rest).isSome
      else if c == 'x' then 2 ≤ ((rest.take 2).takeWhile isHexDigit).length
      else if c == '0' then !(rest.head?.any Char.isDigit)
      else !c.isDigit
    templateBody? (wellFormed && good) (bytes + 1 + c.utf8Size) rest
  | c :: rest => templateBody? wellFormed (bytes + c.utf8Size) rest

/-- The body of a regular expression, up to and with the closing slash. -/
def regexBody? (inClass : Bool) (bytes : Nat) : List Char → Option (Nat × List Char)
  | [] => none
  | '\\' :: c :: rest =>
    if isLineBreak c then none else regexBody? inClass (bytes + 1 + c.utf8Size) rest
  | c :: rest =>
    if isLineBreak c then none
    else if inClass then regexBody? (c != ']') (bytes + c.utf8Size) rest
    else if c == '/' then some (bytes + 1, rest)
    else regexBody? (c == '[') (bytes + c.utf8Size) rest

/-- A regular expression from its opening slash on; its flags are known and occur once. -/
def regex? : List Char → Option Reading
  | '/' :: rest => do
    let (bytes, after) ← regexBody? false 1 rest
    let flags := after.takeWhile isNamePart
    let known := flags.all fun c => ['d', 'g', 'i', 'm', 's', 'u', 'v', 'y'].contains c
    if known && flags.eraseDups.length == flags.length then
      some (.regex, bytes + flags.length, after.drop flags.length)
    else none
  | _ => none

/-- Marks of more than one character, longer ones first. Those with `>` in front are put
together only where an operator is expected, because `>` also closes type arguments. -/
def longMarks : List String :=
  ["...", "===", "!==", "**=", "<<=", "&&=", "||=", "??=",
   "=>", "==", "!=", "<=", "<<", "&&", "||", "??", "?.", "++", "--",
   "+=", "-=", "*=", "/=", "%=", "&=", "|=", "^=", "**"]

def angleMarks : List String := [">>>=", ">>>", ">>=", ">>", ">="]

def singleMarks : List Char :=
  ['\x7b', '\x7d', '(', ')', '[', ']', ';', ',', '<', '>', '+', '-', '*', '/', '%', '&', '|',
   '^', '!', '~', '?', ':', '=', '.', '@']

def leading? (marks : List String) (text : List Char) : Option String :=
  marks.find? fun mark => mark.toList.isPrefixOf text

def mark? (text : List Char) : Option Reading :=
  match leading? longMarks text with
  | some "?." =>
    if (text.drop 2).head?.any Char.isDigit then some (.mark "?", 1, text.drop 1)
    else some (.mark "?.", 2, text.drop 2)
  | some mark => some (.mark mark, mark.length, text.drop mark.length)
  | none => match text with
    | c :: rest => if singleMarks.contains c then some (.mark c.toString, 1, rest) else none
    | [] => none

/-- The operator that a `>` starts where an operator is expected. -/
def angleMark? (text : List Char) : Option Reading :=
  (leading? angleMarks text).map fun mark => (.mark mark, mark.length, text.drop mark.length)

/-- Reads code: anything but regular expressions and the later pieces of templates. -/
def code? : List Char → Option Reading
  | [] => some (.endOfText, 0, [])
  | '#' :: rest => (name? rest).map fun (name, _, bytes, after) => (.privateName name, bytes + 1, after)
  | '\x60' :: rest => templateBody? true 1 rest
  | '\x22' :: rest =>
    (stringBody? '\x22' 0 rest).map fun (cs, n, after) => (.string (String.ofList cs), n + 1, after)
  | '\x27' :: rest =>
    (stringBody? '\x27' 0 rest).map fun (cs, n, after) => (.string (String.ofList cs), n + 1, after)
  | '.' :: c :: rest => if c.isDigit then number? ('.' :: c :: rest) else mark? ('.' :: c :: rest)
  | c :: rest =>
    if isNameStart c || c == '\\' then
      (name? (c :: rest)).map fun (name, escaped, bytes, after) => (.word name escaped, bytes, after)
    else if c.isDigit then number? (c :: rest)
    else mark? (c :: rest)

def templateRest? : List Char → Option Reading
  | '\x7d' :: rest => templateBody? true 1 rest
  | _ => none

/-- A name of a tag or attribute, in which `-` may stand. -/
def jsxName? (text : List Char) : Option Reading :=
  match text with
  | c :: _ =>
    let letters := text.takeWhile fun c => isNamePart c || c == '-'
    if isNameStart c then
      some (.word (String.ofList letters) false, bytesOf letters, text.drop letters.length)
    else none
  | [] => none

/-- The value of an attribute: a string without escapes that may go over lines. -/
def jsxString? : List Char → Option Reading
  | quote :: rest =>
    let inside := rest.takeWhile (· ≠ quote)
    match rest.drop inside.length with
    | _ :: after => some (.string (String.ofList inside), bytesOf inside + 2, after)
    | [] => none
  | [] => none

/-- What stands between tags: text up to the next tag or brace. A closing brace or angle is no
text. -/
def jsxChild? : List Char → Option Reading
  | [] => some (.endOfText, 0, [])
  | '<' :: rest => some (.mark "<", 1, rest)
  | '\x7b' :: rest => some (.mark "\x7b", 1, rest)
  | text =>
    let inside := text.takeWhile fun c => c ≠ '<' && c ≠ '\x7b'
    if inside.any fun c => c == '>' || c == '\x7d' then none
    else some (.jsxText, bytesOf inside, text.drop inside.length)

def skipInterpreterLine (offset : Nat) : List Char → Nat × List Char
  | '#' :: '!' :: rest =>
    let line := rest.takeWhile fun c => !isLineBreak c
    (offset + 2 + bytesOf line, rest.drop line.length)
  | text => (offset, text)

end Token

end ClientBoundary.Syntax
