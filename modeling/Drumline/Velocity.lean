/-
Loudness. Settings use a scale from 0 to 100, which `toData` turns into the scale of MIDI, from 0 to 127. Nothing here
bounds a velocity from below.
-/
import Drumline.Number.Basic

namespace Drumline.Velocity

/-- of accented steps, unless said otherwise -/
def accent : Nat := 100

/-- of other steps, unless said otherwise -/
def normal : Nat := 80

/-- of grace notes, unless said otherwise -/
def grace : Nat := 60

def least : Nat := 0

def greatest : Nat := 100

def greatestData : Nat := 127

/-- A velocity on the scale of MIDI, a half rounded up. What exceeds the scale counts as its end. -/
def toData (velocity : Number) : Except ArithmeticError Int := do
  let bounded := if Number.lt (.int greatest) velocity then .int greatest else velocity
  let share ← Number.div bounded (.int greatest)
  (share * .finite greatestData + .finite (1 / 2)).toInt

end Drumline.Velocity
