/-
Which whole numbers pass for powers of two when the exponent is taken from logarithms in doubles: the natural
logarithm of the number and that of two are rounded to doubles, and the rounded quotient of the two has to be whole.
Rounding makes it miss some true powers, the 29th for one, and lets through numbers that differ from a power by less
than doubles show.
-/
import Drumline.Number.Double

namespace Drumline

/-- the natural logarithm of two, cut after 256 binary places -/
def logTwo : Rat :=
  0xb17217f7d1cf79abc9e3b39803f2f6af40f343267298b62d8a0d175b8baafa2b / (2 : Rat) ^ (256 : Int)

/-- The natural logarithm of `2 ^ k * (1 + e)` for a small `e`, up to the third power of `e`. -/
def logNear (k : Nat) (e : Rat) : Rat :=
  k * logTwo + e - e * e / 2 + e * e * e / 3

/-- The exponent of two that logarithms in doubles find for a positive whole number, if they find a whole one. A number
that is not within `2 ^ -30` of a power of two, relative to it, is too far from one for rounding to matter. -/
def roundedLogTwo? (n : Nat) : Option Nat :=
  match Double.ofRat n with
  | .finite x =>
    let down := (binaryExponent x).toNat
    let k := if x / (2 : Rat) ^ (down : Int) ≤ 3 / 2 then down else down + 1
    let e := x / (2 : Rat) ^ (k : Int) - 1
    if e.abs < (2 : Rat) ^ (-30 : Int) ∧ Double.ofRat (logNear k e) / Double.ofRat logTwo = Double.ofRat k then some k
    else none
  | _ => none

example : roundedLogTwo? 8 = some 3 ∧ roundedLogTwo? 6 = none ∧ roundedLogTwo? 0x20000000 = none := by decide +kernel

end Drumline
