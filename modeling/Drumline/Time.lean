/-
Musical time. A length is given by a subdivision code, the denominator of the note value: 4 is a quarter note, 16 a
sixteenth. `tickDuration` turns a code into ticks, of which a quarter note has 128, `tempoOf` turns beats per minute
into the length of a beat in microseconds, and `Meter.ofLength` reads a time signature off the number of steps.
-/
import Drumline.Number.Basic

namespace Drumline

def ticksPerBeat : Nat := 128

namespace NoteLength

def whole : Nat := 1
def half : Nat := 2
def quarter : Nat := 4
def eighth : Nat := 8
def sixteenth : Nat := 16
def thirtySecond : Nat := 32
def sixtyFourth : Nat := 64
def hundredTwentyEighth : Nat := 128
def twoHundredFiftySixth : Nat := 256

/-- the codes that a step may have -/
def steps : List Nat := [whole, half, quarter, eighth, sixteenth, thirtySecond, sixtyFourth]

/-- the codes that a grace note may have -/
def graces : List Nat := [sixtyFourth, hundredTwentyEighth, twoHundredFiftySixth]

end NoteLength

namespace Tempo

def standard : Nat := 120

def slowest : Nat := 30

def fastest : Nat := 240

end Tempo

/-- the ticks of a subdivision code: the quotient, plus a half, cut to an integer -/
def tickDuration (code : Number) : Except ArithmeticError Int := do
  let ticks ← Number.div (.int (ticksPerBeat * 4)) code
  (ticks + .finite (1 / 2)).toInt

/-- The microseconds of a beat. The beat is scaled by four quarters and back, which matters only where that
overflows. -/
def tempoOf (bpm : Number) : Except ArithmeticError Int := do
  let beat ← Number.div (.double (.finite 60000000)) bpm
  (beat * .finite 4 / .finite 4).roundToInt

/-- a time signature, and the code of a step under it -/
structure Meter where
  numerator : Int
  denominator : Nat
  code : Number
  deriving DecidableEq, Repr

/-- The meter of a number of steps. Steps that divide into eights are four to a quarter note; any other number is
written over eight, with steps of twice the length. -/
def Meter.ofLength (length : Int) (code : Number) : Except ArithmeticError Meter :=
  if length % 8 = 0 then .ok ⟨length / 4, 4, code⟩
  else (Number.div code (.int 2)).map fun halved => ⟨length, 8, .double halved⟩

end Drumline
