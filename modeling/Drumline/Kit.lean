/-
The drum kit: eleven instruments, each with the two-letter name that a pattern calls it by and its note on the General
MIDI percussion map, where the low, middle and high tom are the high floor tom, the low-mid tom and the high tom.
-/
import Drumline.Text.Case

namespace Drumline

inductive Drum where
  | bassDrum | rimShot | snareDrum | clap | closedHat | lowTom | openHat | midTom | cymbal | highTom | cowbell
  deriving DecidableEq, Repr

namespace Drum

/-- every drum, in the order of the notes -/
def all : List Drum :=
  [bassDrum, rimShot, snareDrum, clap, closedHat, lowTom, openHat, midTom, cymbal, highTom, cowbell]

def name : Drum → String
  | bassDrum => "BD"
  | rimShot => "RS"
  | snareDrum => "SD"
  | clap => "CP"
  | closedHat => "CH"
  | lowTom => "LT"
  | openHat => "OH"
  | midTom => "MT"
  | cymbal => "CY"
  | highTom => "HT"
  | cowbell => "CB"

def note : Drum → Nat
  | bassDrum => 36
  | rimShot => 37
  | snareDrum => 38
  | clap => 39
  | closedHat => 42
  | lowTom => 43
  | openHat => 46
  | midTom => 47
  | cymbal => 49
  | highTom => 50
  | cowbell => 56

/-- the drum that a key names, in any case -/
def ofKey? (key : List Char) : Option Drum :=
  all.find? fun drum => Text.isWord drum.name key

theorem mem_all (d : Drum) : d ∈ all := by cases d <;> decide

/-- every note is a data byte -/
theorem note_lt (d : Drum) : d.note < 128 := by cases d <;> decide

end Drum

/-- the key of the accent line, which is no instrument -/
def accentKey : String := "AC"

end Drumline
