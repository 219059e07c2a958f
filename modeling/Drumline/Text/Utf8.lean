/-
UTF-8, with the reason and the place of what cannot be decoded. The decoder takes one byte at a time; inside a
character it knows how many bytes are owed and between which bounds the next one lies. An error names the bytes of the
unfinished character: the byte that does not fit is not one of them, unless it cannot even start a character.
-/
namespace Drumline.Text

inductive DecodingFault where
  | invalidStart
  | invalidContinuation
  | endOfData
  deriving DecidableEq, Repr

/-- a fault, the position of the character it is in, and the bytes of that character up to the fault -/
structure DecodingError where
  fault : DecodingFault
  position : Nat
  bytes : List UInt8
  deriving DecidableEq, Repr

/-- a character of which some bytes are read: those bytes, how many are owed, the bounds of the next one, and the
value so far -/
structure PartialChar where
  bytes : List UInt8
  owed : Nat
  low : UInt8
  high : UInt8
  value : Nat

/-- what the first byte of a character of several bytes says about the others; the bounds of the second byte keep out
longer forms than needed, surrogates and what lies beyond the last code point -/
def PartialChar.start? (b : UInt8) : Option PartialChar :=
  let n := b.toNat
  if n < 0xC2 then none
  else if n < 0xE0 then some ⟨[b], 1, 0x80, 0xBF, n - 0xC0⟩
  else if n = 0xE0 then some ⟨[b], 2, 0xA0, 0xBF, 0⟩
  else if n = 0xED then some ⟨[b], 2, 0x80, 0x9F, 0xD⟩
  else if n < 0xF0 then some ⟨[b], 2, 0x80, 0xBF, n - 0xE0⟩
  else if n = 0xF0 then some ⟨[b], 3, 0x90, 0xBF, 0⟩
  else if n < 0xF4 then some ⟨[b], 3, 0x80, 0xBF, n - 0xF0⟩
  else if n = 0xF4 then some ⟨[b], 3, 0x80, 0x8F, 4⟩
  else none

/-- decodes from a position on, perhaps inside a character -/
def decodeFrom (position : Nat) : Option PartialChar → List UInt8 → Except DecodingError (List Char)
  | none, [] => .ok []
  | some p, [] => .error ⟨.endOfData, position, p.bytes⟩
  | none, b :: rest =>
    if b < 0x80 then (decodeFrom (position + 1) none rest).map (Char.ofNat b.toNat :: ·)
    else match PartialChar.start? b with
      | none => .error ⟨.invalidStart, position, [b]⟩
      | some p => decodeFrom position (some p) rest
  | some p, b :: rest =>
    if b < p.low ∨ p.high < b then .error ⟨.invalidContinuation, position, p.bytes⟩
    else
      let value := p.value * 64 + (b.toNat - 0x80)
      if p.owed ≤ 1 then
        (decodeFrom (position + p.bytes.length + 1) none rest).map (Char.ofNat value :: ·)
      else decodeFrom position (some ⟨p.bytes ++ [b], p.owed - 1, 0x80, 0xBF, value⟩) rest

def decode (bytes : List UInt8) : Except DecodingError (List Char) :=
  decodeFrom 0 none bytes

def encode (text : List Char) : List UInt8 :=
  text.flatMap String.utf8EncodeChar

def DecodingFault.message : DecodingFault → String
  | .invalidStart => "invalid start byte"
  | .invalidContinuation => "invalid continuation byte"
  | .endOfData => "unexpected end of data"

/-- one byte is shown as such, several by the positions of the first and the last -/
def DecodingError.message (e : DecodingError) : String :=
  let place := match e.bytes with
    | [b] => s!"byte 0x{String.ofList (Nat.toDigits 16 b.toNat)} in position {e.position}"
    | bytes => s!"bytes in position {e.position}-{e.position + bytes.length - 1}"
  "'utf-8' codec can't decode " ++ place ++ ": " ++ e.fault.message

end Drumline.Text
