/-
The messages of a drum track, with the bounds of their fields in the types: channels have sixteen values, data bytes
128, and a tempo fits into three bytes. A time signature carries its denominator together with the exponent of two that
is written for it.

A value of unknown size becomes a field through `dataByte`, `channel` and their like, which say what is wrong with it
otherwise.
-/
import Drumline.Number.Basic
import Drumline.Number.Logarithm

namespace Drumline.Midi

abbrev DataByte := Fin 128

abbrev Channel := Fin 16

/-- the microseconds of a beat, in three bytes -/
abbrev BeatLength := Fin 0x1000000

/-- what is wrong with the value of a field -/
inductive FieldError where
  | dataByteKind
  | dataByteRange
  | channelKind
  | channelRange
  | attributeKind
  | attributeRange (low high : Nat)
  | notPowerOfTwo
  deriving DecidableEq, Repr

def FieldError.message : FieldError → String
  | .dataByteKind => "data byte must be int"
  | .dataByteRange => "data byte must be in range 0..127"
  | .channelKind => "channel must be int"
  | .channelRange => "channel must be in range 0..15"
  | .attributeKind => "attribute must be an integer"
  | .attributeRange low high => s!"attribute must be in range {low}..{high}"
  | .notPowerOfTwo => "denominator must be a power of 2"

/-- a whole number as a value below `n + 1` -/
def toFin? (n : Nat) (value : Int) : Option (Fin (n + 1)) :=
  if h : 0 ≤ value ∧ value.toNat < n + 1 then some ⟨value.toNat, h.2⟩ else none

def dataByte : Number → Except FieldError DataByte
  | .int n => (toFin? 127 n).elim (.error .dataByteRange) .ok
  | .double _ => .error .dataByteKind

def channel : Number → Except FieldError Channel
  | .int n => (toFin? 15 n).elim (.error .channelRange) .ok
  | .double _ => .error .channelKind

/-- an attribute from 0 to `n` -/
def attributeUpTo (n : Nat) : Number → Except FieldError (Fin (n + 1))
  | .int value => (toFin? n value).elim (.error (.attributeRange 0 n)) .ok
  | .double _ => .error .attributeKind

/-- the denominator of a time signature, and the exponent of two that stands for it -/
structure Denominator where
  value : Nat
  exponent : Nat
  rounded : roundedLogTwo? value = some exponent

instance : DecidableEq Denominator := fun a b =>
  decidable_of_iff (a.value = b.value) ⟨fun h => by
    obtain ⟨v, e, he⟩ := a
    obtain ⟨w, f, hf⟩ := b
    obtain rfl : v = w := h
    obtain rfl : e = f := Option.some.inj (he.symm.trans hf)
    rfl, fun h => h ▸ rfl⟩

def Denominator.greatest : Nat := 1 <<< 255

/-- a denominator whose rounded logarithm is whole -/
def Denominator.ofNat? (n : Nat) : Option Denominator :=
  match h : roundedLogTwo? n with
  | some k => some ⟨n, k, h⟩
  | none => none

/-- a denominator within bounds -/
def denominator : Number → Except FieldError Denominator
  | .int n =>
    if n < 1 ∨ (Denominator.greatest : Int) < n then .error (.attributeRange 1 Denominator.greatest)
    else (Denominator.ofNat? n.toNat).elim (.error .notPowerOfTwo) .ok
  | .double _ => .error .attributeKind

/-- a message of a drum track -/
inductive Message where
  | trackName (name : String)
  | setTempo (tempo : BeatLength)
  | timeSignature (numerator : Fin 256) (denominator : Denominator) (clocksPerClick thirtySecondsPerBeat : Fin 256)
  | noteOn (channel : Channel) (note velocity : DataByte)
  | noteOff (channel : Channel) (note velocity : DataByte)
  | endOfTrack
  deriving DecidableEq

/-- a message and the ticks that pass before it -/
structure Timed (α : Type) where
  delta : Number
  message : α
  deriving DecidableEq

end Drumline.Midi
