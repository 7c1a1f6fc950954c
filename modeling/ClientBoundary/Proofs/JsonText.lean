import ClientBoundary.Json.Draft
import Mathlib.Algebra.Ring.Int.Defs
import Mathlib.Data.List.DropRight

/-! JSON texts. What is written of a value is read back as that value, at any depth and with any
characters in its strings, as long as its integers fit into 64 bits; the reader never runs out of
steps. And a text that is read to its end has no fault anywhere. -/
namespace ClientBoundary.Json

/-- The characters that are written as a backslash and a letter. -/
def lettered : List Char := ['\x22', '\\', '\n', '\r', '\t', '\x08', '\x0c']

namespace Draft

/-! Strings. -/

theorem escape_of_lettered {c : Char} (named : c ∈ lettered) :
    ∃ letter, escape c = ['\\', letter] ∧ letter ≠ 'u' ∧ simpleEscape? letter = some c := by
  simp only [lettered, List.mem_cons, List.not_mem_nil, or_false] at named
  rcases named with rfl | rfl | rfl | rfl | rfl | rfl | rfl
  · exact ⟨'\x22', by decide⟩
  · exact ⟨'\\', by decide⟩
  · exact ⟨'n', by decide⟩
  · exact ⟨'r', by decide⟩
  · exact ⟨'t', by decide⟩
  · exact ⟨'b', by decide⟩
  · exact ⟨'f', by decide⟩

theorem escape_of_not_lettered {c : Char} (other : c ∉ lettered) : escape c =
    if c.toNat < 0x20 then ['\\', 'u', '0', '0', hexDigit (c.toNat / 16), hexDigit (c.toNat % 16)]
    else [c] := by
  simp only [lettered, List.mem_cons, List.not_mem_nil, or_false, not_or] at other
  simp [escape, other]

theorem stringBody_letter {letter c : Char} (soFar rest : List Char) (plain : letter ≠ 'u')
    (stands : simpleEscape? letter = some c) :
    stringBody (some soFar) none ('\\' :: letter :: rest) = stringBody (some (c :: soFar)) none rest := by
  rw [stringBody]
  · simp [plain, stands]
  · intro _ _ _ _ _ isU
    exact absurd isU plain

theorem hexValues?_hexDigit : ∀ n < 0x20,
    hexValues? ['0', '0', hexDigit (n / 16), hexDigit (n % 16)] = some n := by decide

theorem stringBody_control {c : Char} (soFar rest : List Char) (control : c.toNat < 0x20) :
    stringBody (some soFar) none
        ('\\' :: 'u' :: '0' :: '0' :: hexDigit (c.toNat / 16) :: hexDigit (c.toNat % 16) :: rest) =
      stringBody (some (c :: soFar)) none rest := by
  have high : isHighSurrogate c.toNat = false := by
    simp only [isHighSurrogate, Bool.and_eq_false_iff, decide_eq_false_iff_not]
    omega
  have low : isLowSurrogate c.toNat = false := by
    simp only [isLowSurrogate, Bool.and_eq_false_iff, decide_eq_false_iff_not]
    omega
  simp [stringBody, hexValues?_hexDigit c.toNat control, high, low, Char.ofNat_toNat]

theorem stringBody_plain {c : Char} (soFar rest : List Char) (other : c ∉ lettered)
    (plain : ¬c.toNat < 0x20) :
    stringBody (some soFar) none (c :: rest) = stringBody (some (c :: soFar)) none rest := by
  simp only [lettered, List.mem_cons, List.not_mem_nil, or_false, not_or] at other
  rw [stringBody]
  · simp [plain]
  · exact other.1
  · intro _ _ _ _ _ backslash
    exact absurd backslash other.2.1
  · intro _ _ backslash
    exact absurd backslash other.2.1

theorem stringBody_escape (c : Char) (soFar rest : List Char) :
    stringBody (some soFar) none (escape c ++ rest) = stringBody (some (c :: soFar)) none rest := by
  by_cases named : c ∈ lettered
  · obtain ⟨letter, written, plain, stands⟩ := escape_of_lettered named
    rw [written]
    exact stringBody_letter soFar rest plain stands
  · rw [escape_of_not_lettered named]
    by_cases control : c.toNat < 0x20
    · rw [if_pos control]
      exact stringBody_control soFar rest control
    · rw [if_neg control]
      exact stringBody_plain soFar rest named control

theorem stringBody_quoted (text soFar rest : List Char) :
    stringBody (some soFar) none (text.flatMap escape ++ '\x22' :: rest) =
      .ok (some (String.ofList (soFar.reverse ++ text)), rest) := by
  induction text generalizing soFar with
  | nil => simp [stringBody]
  | cons c text ih =>
    rw [List.flatMap_cons, List.append_assoc, stringBody_escape, ih, List.reverse_cons,
      List.append_assoc]
    rfl

theorem stringBody_text (text : String) (rest : List Char) :
    stringBody (some []) none (text.toList.flatMap escape ++ '\x22' :: rest) = .ok (some text, rest) := by
  rw [stringBody_quoted, List.reverse_nil, List.nil_append, String.ofList_toList]

/-! Numbers. -/

theorem exists_toDigits (n : Nat) : ∃ c more, Nat.toDigits 10 n = c :: more ∧ c.isDigit = true := by
  obtain ⟨c, more, digits⟩ := List.exists_cons_of_ne_nil (Nat.toDigits_ne_nil : Nat.toDigits 10 n ≠ [])
  exact ⟨c, more, digits, Nat.isDigit_of_mem_toDigits (show 0 < 10 by decide) (by decide)
    (digits ▸ List.mem_cons_self)⟩

theorem head?_toDigits {n : Nat} (positive : 0 < n) : (Nat.toDigits 10 n).head? ≠ some '0' := by
  induction n using Nat.strongRecOn with
  | ind n ih =>
    rw [Nat.toDigits_eq_if (by decide)]
    split
    · next small =>
      have nonzero : ∀ digit < 10, 0 < digit → [digit.digitChar].head? ≠ some '0' := by decide
      exact nonzero n small positive
    · rw [List.head?_append, Option.or_of_isSome (by simp [Nat.toDigits_ne_nil])]
      exact ih (n / 10) (by omega) (by omega)

theorem natValue_toDigits (n : Nat) : natValue (Nat.toDigits 10 n) = n := by
  have value := Nat.ofDigitChars_ten_toDigits (n := n)
  rw [Nat.ofDigitChars_eq_foldl] at value
  simpa only [natValue, Nat.mul_comm] using value

/-- What may follow a number in a written text, so that the number ends there. -/
def EndsNumber (rest : List Char) : Prop := ∀ c ∈ rest.head?, c = ',' ∨ c = '\n'

theorem numberBody_toDigits (negative : Bool) (n : Nat) {rest : List Char} (ends : EndsNumber rest) :
    numberBody negative (Nat.toDigits 10 n ++ rest) = .ok (some (wholeNumber negative n), rest) := by
  have digits : ∀ c ∈ Nat.toDigits 10 n, c.isDigit = true := fun c =>
    Nat.isDigit_of_mem_toDigits (by decide) (by decide)
  have stops : ∀ c ∈ rest.head?, c.isDigit = false ∧ c ≠ '.' ∧ c ≠ 'e' ∧ c ≠ 'E' := by
    intro c first
    rcases ends c first with rfl | rfl <;> decide
  have taken : (Nat.toDigits 10 n ++ rest).takeWhile Char.isDigit = Nat.toDigits 10 n := by
    rw [List.takeWhile_append_of_pos digits]
    cases rest with
    | nil => simp
    | cons c rest => simp [(stops c rfl).1]
  have dropped : (Nat.toDigits 10 n ++ rest).dropWhile Char.isDigit = rest := by
    rw [List.dropWhile_append_of_pos digits]
    cases rest with
    | nil => rfl
    | cons c rest => simp [(stops c rfl).1]
  have noFraction : fractionPart rest = .ok (none, rest) := by
    cases rest with
    | nil => rfl
    | cons c rest =>
      rw [fractionPart]
      intro _ isPoint
      exact absurd (List.cons.inj isPoint).1 (stops c rfl).2.1
  have noExponent : exponentPart rest = .ok (none, rest) := by
    cases rest with
    | nil => rfl
    | cons c rest => simp [exponentPart, (stops c rfl).2.2]
  have noZero : ((Nat.toDigits 10 n).head? = some '0' && decide ((Nat.toDigits 10 n).length > 1)) = false := by
    rcases Nat.eq_zero_or_pos n with rfl | positive
    · decide
    · simp [head?_toDigits positive]
  simp only [numberBody, taken, dropped, noFraction, noExponent, noZero, natValue_toDigits, bind,
    Except.bind]
  simp [Nat.toDigits_ne_nil, isHeld, pure, Except.pure]

/-! Blanks. -/

theorem skipBlank_newLine (depth : Nat) (rest : List Char) :
    skipBlank (newLine depth ++ rest) = skipBlank rest := by
  rw [skipBlank, newLine, List.dropWhile_append_of_pos]
  · rfl
  · intro c member
    rcases List.mem_cons.mp member with rfl | blank
    · rfl
    · rw [List.eq_of_mem_replicate blank]
      rfl

theorem skipBlank_skipBlank (text : List Char) : skipBlank (skipBlank text) = skipBlank text :=
  List.dropWhile_idempotent _ text

theorem value_skipBlank {first second : List Char} (same : skipBlank first = skipBlank second)
    (fuel : Nat) : value fuel first = value fuel second := by
  cases fuel with
  | zero => rfl
  | succ fuel => rw [value, value, same]

theorem value_newLine (fuel depth : Nat) (rest : List Char) :
    value fuel (newLine depth ++ rest) = value fuel rest :=
  value_skipBlank (skipBlank_newLine depth rest) fuel

theorem items_skipBlank (fuel : Nat) (soFar : List Draft) (text : List Char) :
    items fuel soFar (skipBlank text) = items fuel soFar text := by
  cases fuel with
  | zero => rfl
  | succ fuel => rw [items, items, value_skipBlank (skipBlank_skipBlank text)]

theorem members_skipBlank (fuel : Nat) (soFar : List (Option String × Draft)) (text : List Char) :
    members fuel soFar (skipBlank text) = members fuel soFar text := by
  cases fuel with
  | zero => rfl
  | succ fuel => rw [members, members, skipBlank_skipBlank]

/-! Values. -/

theorem ne_of_isDigit {c : Char} (digit : c.isDigit = true) :
    ∀ other ∈ [' ', '\n', '\t', '\r', '\x22', 'n', 't', 'f', '-', '[', ']', '\x7b'], c ≠ other := by
  rintro other member rfl
  have none : [' ', '\n', '\t', '\r', '\x22', 'n', 't', 'f', '-', '[', ']', '\x7b'].all
      (fun other => !other.isDigit) = true := rfl
  simpa [digit] using List.all_eq_true.mp none c member

theorem value_digit {c : Char} (digit : c.isDigit = true) (fuel : Nat) (rest : List Char) :
    value (fuel + 1) (c :: rest) = ofResult .number (numberBody false (c :: rest)) := by
  have others := ne_of_isDigit digit
  simp only [List.mem_cons, List.not_mem_nil, or_false, forall_eq_or_imp, forall_eq] at others
  have solid : skipBlank (c :: rest) = c :: rest := by
    simp [skipBlank, isJsonBlank, others]
  rw [value, solid]
  split <;> simp_all

theorem value_array {inside more : List Char} {c : Char} (fuel : Nat)
    (start : skipBlank inside = c :: more) (unclosed : c ≠ ']') :
    value (fuel + 1) ('[' :: inside) = items fuel [] inside := by
  have outer : skipBlank ('[' :: inside) = '[' :: inside := by simp [skipBlank, isJsonBlank]
  rw [← items_skipBlank, value, outer]
  simp only [start]
  split
  · next closes => exact absurd (List.cons.inj closes).1 unclosed
  · next empty => cases empty
  · rfl

theorem value_object {inside more : List Char} {c : Char} (fuel : Nat)
    (start : skipBlank inside = c :: more) (unclosed : c ≠ '\x7d') :
    value (fuel + 1) ('\x7b' :: inside) = members fuel [] inside := by
  have outer : skipBlank ('\x7b' :: inside) = '\x7b' :: inside := by simp [skipBlank, isJsonBlank]
  rw [← members_skipBlank, value, outer]
  simp only [start]
  split
  · next closes => exact absurd (List.cons.inj closes).1 unclosed
  · rfl

mutual

def ofJson : Json → Draft
  | .null => .null
  | .boolean value => .boolean value
  | .integer value => .number (some (.integer value))
  | .string text => .string (some text)
  | .array items => .array (ofItems items) none
  | .object members => .object (ofMembers members) none

def ofItems : List Json → List Draft
  | [] => []
  | item :: rest => ofJson item :: ofItems rest

def ofMembers : List (String × Json) → List (Option String × Draft)
  | [] => []
  | (key, item) :: rest => (some key, ofJson item) :: ofMembers rest

end

mutual

theorem value?_ofJson (json : Json) : (ofJson json).value? = some json := by
  cases json with
  | null | boolean | integer | string => rfl
  | array items => simp [ofJson, value?, valuesOfItems?_ofItems items]
  | object members => simp [ofJson, value?, valuesOfMembers?_ofMembers members]

theorem valuesOfItems?_ofItems (items : List Json) : valuesOfItems? (ofItems items) = some items := by
  cases items with
  | nil => rfl
  | cons item rest => simp [ofItems, valuesOfItems?, value?_ofJson item, valuesOfItems?_ofItems rest]

theorem valuesOfMembers?_ofMembers (members : List (String × Json)) :
    valuesOfMembers? (ofMembers members) = some members := by
  cases members with
  | nil => rfl
  | cons member rest =>
    obtain ⟨key, item⟩ := member
    simp [ofMembers, valuesOfMembers?, value?_ofJson item, valuesOfMembers?_ofMembers rest]

end

/-- A value is read as it was written, at any depth and with anything behind it, by whoever takes as
many steps as it has characters. -/
def ReadsBack (json : Json) : Prop :=
  ∀ (depth fuel : Nat) (rest : List Char), EndsNumber rest → (write depth json).length ≤ fuel →
    value fuel (write depth json ++ rest) = (ofJson json, some rest)

theorem endsNumber_writeItems (depth : Nat) (items : List Json) (rest : List Char) :
    EndsNumber (writeItems depth items ++ rest) := by
  cases items <;> simp [EndsNumber, writeItems, newLine]

theorem endsNumber_writeMembers (depth : Nat) (members : List (String × Json)) (rest : List Char) :
    EndsNumber (writeMembers depth members ++ rest) := by
  cases members <;> simp [EndsNumber, writeMembers, newLine]

theorem items_written {first : Json} {others : List Json}
    (each : ∀ item ∈ first :: others, ReadsBack item) (depth : Nat) {fuel : Nat}
    (enough : (write (depth + 1) first).length + (writeItems depth others).length < fuel)
    (soFar : List Draft) (rest : List Char) :
    items fuel soFar (newLine (depth + 1) ++
        (write (depth + 1) first ++ (writeItems depth others ++ rest))) =
      (.array (soFar ++ ofItems (first :: others)) none, some rest) := by
  induction others generalizing first fuel soFar with
  | nil =>
    obtain ⟨fuel, rfl⟩ : ∃ less, fuel = less + 1 := ⟨fuel - 1, by omega⟩
    have read := each first List.mem_cons_self (depth + 1) fuel (writeItems depth [] ++ rest)
      (endsNumber_writeItems _ _ _) (by omega)
    have closes : skipBlank (writeItems depth [] ++ rest) = ']' :: rest := by
      rw [writeItems, List.append_assoc, skipBlank_newLine]
      rfl
    rw [items, value_newLine, read]
    simp only [closes]
    rfl
  | cons next others ih =>
    obtain ⟨fuel, rfl⟩ : ∃ less, fuel = less + 1 := ⟨fuel - 1, by omega⟩
    have read := each first List.mem_cons_self (depth + 1) fuel (writeItems depth (next :: others) ++ rest)
      (endsNumber_writeItems _ _ _) (by omega)
    simp only [writeItems, List.length_cons, List.length_append] at enough
    have further := ih (fun item member => each item (List.mem_cons_of_mem _ member))
      (show _ < fuel by omega) (soFar ++ [ofJson first])
    have comma : skipBlank (writeItems depth (next :: others) ++ rest) = ',' :: (newLine (depth + 1) ++
        (write (depth + 1) next ++ (writeItems depth others ++ rest))) := by
      simp [writeItems, skipBlank, isJsonBlank]
    rw [items, value_newLine, read]
    simp only [comma]
    rw [further, List.append_assoc]
    rfl

/-- One member. What comes behind it says whether there are more. -/
theorem member_written (key : String) {json : Json} (back : ReadsBack json) (depth : Nat) {fuel : Nat}
    (enough : (write depth json).length ≤ fuel) (soFar : List (Option String × Draft))
    {rest more : List Char} (ends : EndsNumber rest) :
    let text := newLine depth ++ (quote key ++ (':' :: ' ' :: (write depth json ++ rest)))
    let longer := soFar ++ [(some key, ofJson json)]
    (skipBlank rest = ',' :: more → members (fuel + 1) soFar text = members fuel longer more) ∧
      (skipBlank rest = '\x7d' :: more →
        members (fuel + 1) soFar text = (.object longer none, some more)) := by
  intro text longer
  have blank : value fuel (' ' :: (write depth json ++ rest)) = (ofJson json, some rest) := by
    rw [← back depth fuel rest ends enough]
    exact value_skipBlank (by simp [skipBlank, isJsonBlank]) fuel
  have name := stringBody_text key (':' :: ' ' :: (write depth json ++ rest))
  have solid : ∀ c rest, isJsonBlank c = false → skipBlank (c :: rest) = c :: rest := by
    intro c rest solid
    simp [skipBlank, solid]
  simp only [text, longer]
  rw [← members_skipBlank, skipBlank_newLine, members_skipBlank, quote, List.cons_append,
    List.append_assoc, members, solid _ _ rfl]
  simp only [List.singleton_append, name, solid ':' _ rfl, blank]
  constructor
  · intro comma
    simp only [comma]
  · intro closes
    simp only [closes]

theorem members_written {key : String} {json : Json} {others : List (String × Json)}
    (each : ∀ member ∈ (key, json) :: others, ReadsBack member.2) (depth : Nat) {fuel : Nat}
    (enough : (write (depth + 1) json).length + (writeMembers depth others).length < fuel)
    (soFar : List (Option String × Draft)) (rest : List Char) :
    members fuel soFar (newLine (depth + 1) ++ (quote key ++ (':' :: ' ' ::
        (write (depth + 1) json ++ (writeMembers depth others ++ rest))))) =
      (.object (soFar ++ ofMembers ((key, json) :: others)) none, some rest) := by
  induction others generalizing key json fuel soFar with
  | nil =>
    obtain ⟨fuel, rfl⟩ : ∃ less, fuel = less + 1 := ⟨fuel - 1, by omega⟩
    have back : ReadsBack json := each (key, json) List.mem_cons_self
    apply (member_written key back (depth + 1) (show _ ≤ fuel by omega) soFar
      (endsNumber_writeMembers depth [] rest)).2
    rw [writeMembers, List.append_assoc, skipBlank_newLine]
    rfl
  | cons next others ih =>
    obtain ⟨fuel, rfl⟩ : ∃ less, fuel = less + 1 := ⟨fuel - 1, by omega⟩
    have back : ReadsBack json := each (key, json) List.mem_cons_self
    have comma : skipBlank (writeMembers depth (next :: others) ++ rest) = ',' :: (newLine (depth + 1) ++
        (quote next.1 ++ (':' :: ' ' :: (write (depth + 1) next.2 ++
          (writeMembers depth others ++ rest))))) := by
      simp [writeMembers, skipBlank, isJsonBlank]
    have one := (member_written key back (depth + 1) (show _ ≤ fuel by omega) soFar
      (endsNumber_writeMembers depth (next :: others) rest)).1 comma
    simp only [writeMembers, List.length_cons, List.length_append] at enough
    have further := ih (fun member isMember => each member (List.mem_cons_of_mem _ isMember))
      (show _ < fuel by omega) (soFar ++ [(some key, ofJson json)])
    rw [one, further, List.append_assoc]
    rfl

end Draft

/-- A value whose integers fit into 64 bits, so that they are told from other numbers when they are
read. -/
inductive Held : Json → Prop where
  | null : Held .null
  | boolean (value : Bool) : Held (.boolean value)
  | integer {value : Int} (least : -2 ^ 63 ≤ value) (most : value < 2 ^ 64) : Held (.integer value)
  | string (text : String) : Held (.string text)
  | array {items : List Json} (each : ∀ item ∈ items, Held item) : Held (.array items)
  | object {members : List (String × Json)} (each : ∀ member ∈ members, Held member.2) :
    Held (.object members)

attribute [simp] Held.null Held.boolean Held.string

@[simp] theorem held_array_iff {items : List Json} : Held (.array items) ↔ ∀ item ∈ items, Held item :=
  ⟨fun held => by cases held; assumption, .array⟩

@[simp] theorem held_object_iff {members : List (String × Json)} :
    Held (.object members) ↔ ∀ member ∈ members, Held member.2 :=
  ⟨fun held => by cases held; assumption, .object⟩

open Draft

theorem toString_natCast (n : Nat) : (toString (n : Int)).toList = Nat.toDigits 10 n := by
  rw [Int.toString_eq_repr, Int.repr_eq_if, if_pos (by omega), Int.toNat_natCast,
    Nat.repr_eq_ofList_toDigits, String.toList_ofList]

theorem toString_neg {n : Nat} (positive : 0 < n) :
    (toString (-n : Int)).toList = '-' :: Nat.toDigits 10 n := by
  rw [Int.toString_eq_repr, Int.repr_eq_if, if_neg (by omega), Int.neg_neg, Int.toNat_natCast,
    Nat.repr_eq_ofList_toDigits, String.toList_append]
  exact congrArg ('-' :: ·) String.toList_ofList

theorem write_head (depth : Nat) (json : Json) :
    ∃ c more, write depth json = c :: more ∧ isJsonBlank c = false ∧ c ≠ ']' := by
  fun_cases write depth json with
  | case4 value =>
    by_cases natural : 0 ≤ value
    · obtain ⟨n, rfl⟩ := Int.eq_ofNat_of_zero_le natural
      obtain ⟨c, more, digits, digit⟩ := exists_toDigits n
      have others := ne_of_isDigit digit
      exact ⟨c, more, (toString_natCast n).trans digits, by simp [isJsonBlank, others],
        others _ (by decide)⟩
    · obtain ⟨n, rfl⟩ : ∃ n : Nat, value = -n := ⟨(-value).toNat, by omega⟩
      exact ⟨'-', _, toString_neg (by omega), rfl, by decide⟩
  | _ => exact ⟨_, _, rfl, rfl, by decide⟩

theorem readsBack_of_succ {json : Json}
    (reads : ∀ (depth fuel : Nat) (rest : List Char), EndsNumber rest →
      (write depth json).length ≤ fuel + 1 →
      value (fuel + 1) (write depth json ++ rest) = (ofJson json, some rest)) : ReadsBack json := by
  intro depth fuel rest ends enough
  cases fuel with
  | zero =>
    obtain ⟨c, more, written, _⟩ := write_head depth json
    rw [written] at enough
    cases enough
  | succ fuel => exact reads depth fuel rest ends enough

theorem integer_readsBack {value : Int} (least : -2 ^ 63 ≤ value) (most : value < 2 ^ 64) :
    ReadsBack (.integer value) := by
  apply readsBack_of_succ
  intro depth fuel rest ends _
  rw [write, ofJson]
  by_cases natural : 0 ≤ value
  · obtain ⟨n, rfl⟩ := Int.eq_ofNat_of_zero_le natural
    have small : n < Nat.pow 2 64 := by
      rw [Nat.pow_eq]
      omega
    have whole : wholeNumber false n = .integer n := by
      rw [wholeNumber, if_neg (by simp), if_pos small]
    have body := numberBody_toDigits false n ends
    obtain ⟨c, more, digits, digit⟩ := exists_toDigits n
    rw [digits] at body
    rw [toString_natCast, digits, List.cons_append, value_digit digit, ← List.cons_append, body, whole]
    rfl
  · obtain ⟨n, rfl⟩ : ∃ n : Nat, value = -n := ⟨(-value).toNat, by omega⟩
    have large : (decide (n = 0) || decide (Nat.pow 2 63 < n)) = false := by
      simp only [Nat.pow_eq, Bool.or_eq_false_iff, decide_eq_false_iff_not]
      omega
    have whole : wholeNumber true n = .integer (-n) := by
      rw [wholeNumber, if_pos rfl, large]
      rfl
    rw [toString_neg (by omega)]
    simp [Draft.value, skipBlank, isJsonBlank, numberBody_toDigits true n ends, whole, ofResult]

theorem string_readsBack (text : String) : ReadsBack (.string text) := by
  apply readsBack_of_succ
  intro depth fuel rest _ _
  simp [write, quote, value, skipBlank, isJsonBlank, stringBody_text, ofResult, ofJson]

theorem array_readsBack {items : List Json} (each : ∀ item ∈ items, ReadsBack item) :
    ReadsBack (.array items) := by
  apply readsBack_of_succ
  intro depth fuel rest _ enough
  cases items with
  | nil => simp [write, value, skipBlank, isJsonBlank, ofJson, ofItems]
  | cons first others =>
    simp only [write, newLine, List.length_cons, List.length_append] at enough
    have read := items_written each depth (show _ < fuel by omega) [] rest
    obtain ⟨c, more, written, solid, unclosed⟩ := write_head (depth + 1) first
    have start : skipBlank (newLine (depth + 1) ++ (write (depth + 1) first ++
        (writeItems depth others ++ rest))) = c :: (more ++ (writeItems depth others ++ rest)) := by
      rw [skipBlank_newLine, written]
      simp [skipBlank, solid]
    simp only [write, List.cons_append, List.append_assoc]
    rw [value_array fuel start unclosed, read]
    rfl

theorem object_readsBack {members : List (String × Json)}
    (each : ∀ member ∈ members, ReadsBack member.2) : ReadsBack (.object members) := by
  apply readsBack_of_succ
  intro depth fuel rest _ enough
  cases members with
  | nil => simp [write, value, skipBlank, isJsonBlank, ofJson, ofMembers]
  | cons first others =>
    simp only [write, newLine, List.length_cons, List.length_append] at enough
    have read := members_written each depth (show _ < fuel by omega) [] rest
    have start (behind : List Char) : skipBlank (newLine (depth + 1) ++ (quote first.1 ++ behind)) =
        '\x22' :: (first.1.toList.flatMap escape ++ '\x22' :: behind) := by
      rw [skipBlank_newLine]
      simp [quote, skipBlank, isJsonBlank]
    simp only [write, List.cons_append, List.append_assoc, List.nil_append]
    rw [value_object fuel (start _) (by decide), read]
    rfl

namespace Held

variable {json : Json}

theorem readsBack (held : json.Held) : ReadsBack json := by
  induction held with
  | null =>
    apply readsBack_of_succ
    intro depth fuel rest _ _
    simp [write, value, skipBlank, isJsonBlank, wordBody, ofWord, ofJson]
  | boolean value =>
    apply readsBack_of_succ
    intro depth fuel rest _ _
    cases value <;> simp [write, Draft.value, skipBlank, isJsonBlank, wordBody, ofWord, ofJson]
  | integer least most => exact integer_readsBack least most
  | string text => exact string_readsBack text
  | array _ back => exact array_readsBack back
  | object _ back => exact object_readsBack back

end Held

/-- A text is one document, with nothing but blanks behind it. -/
def Spells (text : String) (draft : Draft) : Prop :=
  ∃ rest, Draft.read text.toList = (draft, some rest) ∧ skipBlank rest = []

theorem Held.spells {json : Json} (held : json.Held) : Spells json.pretty (ofJson json) := by
  have read := held.readsBack 0 (2 * (json.write 0).length + 2) [] (by simp [EndsNumber]) (by omega)
  rw [List.append_nil] at read
  exact ⟨[], by rw [pretty, String.toList_ofList, Draft.read, read], rfl⟩

theorem parse?_of_spells {text : String} {draft : Draft} (spells : Spells text draft) :
    parse? text = draft.value? := by
  obtain ⟨rest, read, blank⟩ := spells
  rw [parse?, read]
  simp [blank]

theorem parse?_pretty {json : Json} (held : json.Held) : parse? json.pretty = some json := by
  rw [parse?_of_spells held.spells, value?_ofJson]

/-! Faults. -/

namespace Draft

theorem ofResult_eq {α : Type} {make : α → Draft} {result : Except Break (α × List Char)} {draft : Draft}
    {rest : List Char} (read : ofResult make result = (draft, some rest)) :
    ∃ value, draft = make value := by
  cases result with
  | error fault => cases read
  | ok pair =>
    cases read
    exact ⟨_, rfl⟩

theorem ofWord_eq {word draft : Draft} {result : Except Break (List Char)} {rest : List Char}
    (read : ofWord word result = (draft, some rest)) : draft = word := by
  cases result with
  | error fault => cases read
  | ok behind =>
    cases read
    rfl

theorem skipFaultOfItems_eq_none {items : List Draft} :
    skipFaultOfItems items = none ↔ ∀ item ∈ items, item.skipFault = none := by
  induction items with
  | nil => simp [skipFaultOfItems]
  | cons item rest ih => simp [skipFaultOfItems, ih]

theorem skipFaultOfMembers_eq_none {members : List (Option String × Draft)} :
    skipFaultOfMembers members = none ↔ ∀ member ∈ members, member.2.skipFault = none := by
  induction members with
  | nil => simp [skipFaultOfMembers]
  | cons member rest ih => simp [skipFaultOfMembers, ih]

/-- Whatever is read to its end in some number of steps has no fault in it. -/
structure ReadsWhole (fuel : Nat) : Prop where
  value {text rest : List Char} {draft : Draft} (read : value fuel text = (draft, some rest)) :
    draft.skipFault = none
  items {soFar : List Draft} {text rest : List Char} {draft : Draft}
    (whole : ∀ item ∈ soFar, item.skipFault = none)
    (read : items fuel soFar text = (draft, some rest)) : draft.skipFault = none
  members {soFar : List (Option String × Draft)} {text rest : List Char} {draft : Draft}
    (whole : ∀ member ∈ soFar, member.2.skipFault = none)
    (read : members fuel soFar text = (draft, some rest)) : draft.skipFault = none

namespace ReadsWhole

variable {fuel : Nat} {text rest : List Char} {draft : Draft} (less : ReadsWhole fuel)

include less

theorem value_succ (read : Draft.value (fuel + 1) text = (draft, some rest)) :
    draft.skipFault = none := by
  rw [Draft.value] at read
  split at read
  · cases read
  · obtain ⟨_, rfl⟩ := ofResult_eq read
    rfl
  · rw [ofWord_eq read]
    rfl
  · rw [ofWord_eq read]
    rfl
  · rw [ofWord_eq read]
    rfl
  · obtain ⟨_, rfl⟩ := ofResult_eq read
    rfl
  · split at read
    · cases read
      rfl
    · cases read
    · exact less.items (by simp) read
  · split at read
    · cases read
      rfl
    · exact less.members (by simp) read
  · split at read
    · obtain ⟨_, rfl⟩ := ofResult_eq read
      rfl
    · cases read

theorem items_succ {soFar : List Draft} (whole : ∀ item ∈ soFar, item.skipFault = none)
    (read : Draft.items (fuel + 1) soFar text = (draft, some rest)) : draft.skipFault = none := by
  rw [Draft.items] at read
  split at read
  · cases read
  · next item behind found =>
    have longer : ∀ other ∈ soFar ++ [item], other.skipFault = none := by
      rw [List.forall_mem_append, List.forall_mem_singleton]
      exact ⟨whole, less.value found⟩
    split at read
    · exact less.items longer read
    · cases read
      simp [skipFault, skipFaultOfItems_eq_none.mpr longer]
    · cases read
    · cases read

theorem members_succ {soFar : List (Option String × Draft)}
    (whole : ∀ member ∈ soFar, member.2.skipFault = none)
    (read : Draft.members (fuel + 1) soFar text = (draft, some rest)) : draft.skipFault = none := by
  rw [Draft.members] at read
  split at read
  · cases read
  · split at read
    · cases read
    · next key _ _ =>
      split at read
      · cases read
      · split at read
        · cases read
        · next item behind found =>
          have longer : ∀ other ∈ soFar ++ [(key, item)], other.2.skipFault = none := by
            rw [List.forall_mem_append, List.forall_mem_singleton]
            exact ⟨whole, less.value found⟩
          split at read
          · exact less.members longer read
          · cases read
            simp [skipFault, skipFaultOfMembers_eq_none.mpr longer]
          · cases read
          · cases read
      · cases read
  · cases read

end ReadsWhole

theorem readsWhole (fuel : Nat) : ReadsWhole fuel := by
  induction fuel with
  | zero =>
    refine ⟨?_, ?_, ?_⟩
    · intro text rest draft read
      cases read
    · intro soFar text rest draft _ read
      cases read
    · intro soFar text rest draft _ read
      cases read
  | succ fuel less => exact ⟨less.value_succ, less.items_succ, less.members_succ⟩

end Draft

theorem Spells.whole {text : String} {draft : Draft} (spells : Spells text draft) :
    draft.skipFault = none := by
  obtain ⟨rest, read, _⟩ := spells
  exact (readsWhole _).value read

end ClientBoundary.Json
