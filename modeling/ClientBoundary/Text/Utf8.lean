/-! Characters from bytes. Bytes that form no character are told apart as far as they could still
have become one. -/
namespace ClientBoundary.Utf8

/-- A character that has begun: how many bytes it still owes, the range of the next one, and the
bits so far. -/
structure Begun where
  owed : Nat
  low : Nat
  high : Nat
  bits : Nat
  deriving DecidableEq, Repr

inductive Start where
  | whole (c : Char)
  | begun (state : Begun)
  | invalid
  deriving DecidableEq, Repr

/-- What a byte starts. Ranges of the second byte rule out long forms and surrogates. -/
def start (byte : Nat) : Start :=
  if byte < 0x80 then .whole (Char.ofNat byte)
  else if byte < 0xC2 then .invalid
  else if byte < 0xE0 then .begun ⟨1, 0x80, 0xBF, byte - 0xC0⟩
  else if byte = 0xE0 then .begun ⟨2, 0xA0, 0xBF, 0⟩
  else if byte = 0xED then .begun ⟨2, 0x80, 0x9F, 0xD⟩
  else if byte < 0xF0 then .begun ⟨2, 0x80, 0xBF, byte - 0xE0⟩
  else if byte = 0xF0 then .begun ⟨3, 0x90, 0xBF, 0⟩
  else if byte < 0xF4 then .begun ⟨3, 0x80, 0xBF, byte - 0xF0⟩
  else if byte = 0xF4 then .begun ⟨3, 0x80, 0x8F, 4⟩
  else .invalid

/-- The characters of some bytes after what has begun; nothing stands for each stretch that forms
none. -/
def decodeFrom : Option Begun → List UInt8 → List (Option Char)
  | none, [] => []
  | some _, [] => [none]
  | none, byte :: rest =>
    match start byte.toNat with
    | .whole c => some c :: decodeFrom none rest
    | .begun state => decodeFrom (some state) rest
    | .invalid => none :: decodeFrom none rest
  | some state, byte :: rest =>
    let byte := byte.toNat
    if state.low ≤ byte ∧ byte ≤ state.high then
      let bits := state.bits * 64 + (byte - 0x80)
      if state.owed = 1 then some (Char.ofNat bits) :: decodeFrom none rest
      else decodeFrom (some ⟨state.owed - 1, 0x80, 0xBF, bits⟩) rest
    else
      none :: match start byte with
        | .whole c => some c :: decodeFrom none rest
        | .begun state => decodeFrom (some state) rest
        | .invalid => none :: decodeFrom none rest

def decode? (bytes : List UInt8) : Option String :=
  ((decodeFrom none bytes).mapM id).map String.ofList

def decodeLossy (bytes : List UInt8) : String :=
  String.ofList ((decodeFrom none bytes).map (·.getD (Char.ofNat 0xFFFD)))

end ClientBoundary.Utf8
