/-
IEEE 754 double-precision numbers as exact rationals. A finite double carries the rational it stands for, and each
operation is the exact operation on rationals followed by one rounding, `Double.ofRat`, to the nearest double with
ties to the even last place.

`ofRat` is the only place where precision is lost: `roundEven` rounds to an integer, `lastPlace` says which power of
two is the unit of the last of the 53 binary places.
-/
namespace Drumline

/-- a double; zero has two signs, and a finite value other than a zero is the rational itself -/
inductive Double where
  | finite (value : Rat)
  | negativeZero
  | infinite (negative : Bool)
  | nan
  deriving DecidableEq, Repr, Inhabited

/-- the integer nearest to `q`; a half goes to the even neighbour -/
def roundEven (q : Rat) : Int :=
  let k := q.floor
  if q - k < 1 / 2 then k
  else if 1 / 2 < q - k then k + 1
  else k + k % 2

/-- the integer next to `q` on the side of zero -/
def truncate (q : Rat) : Int :=
  if q < 0 then q.ceil else q.floor

/-- the exponent `e` with `2 ^ e ≤ |q| < 2 ^ (e + 1)`, for `q ≠ 0` -/
def binaryExponent (q : Rat) : Int :=
  let e : Int := (q.num.natAbs.log2 : Int) - q.den.log2
  if (2 : Rat) ^ e ≤ q.abs then e else e - 1

namespace Double

/-- the exponent of the last binary place of a double of the size of `q`: 53 places, and none below `2 ^ -1074` -/
def lastPlace (q : Rat) : Int :=
  max (binaryExponent q - 52) (-1074)

/-- the double nearest to `q`, ties to even; what rounds beyond the largest double is infinite, and a negative value
that rounds to nothing is the negative zero -/
def ofRat (q : Rat) : Double :=
  if q = 0 then .finite 0
  else
    let place := lastPlace q
    let n := roundEven (q / (2 : Rat) ^ place)
    let value := (n : Rat) * (2 : Rat) ^ place
    if n = 0 then (if q < 0 then .negativeZero else .finite 0)
    else if (2 : Rat) ^ (1024 : Int) ≤ value.abs then .infinite (q < 0)
    else .finite value

/-- the sign bit; not-a-number counts as positive -/
def isNegative : Double → Bool
  | .finite q => q < 0
  | .negativeZero => true
  | .infinite negative => negative
  | .nan => false

def zero (negative : Bool) : Double :=
  if negative then .negativeZero else .finite 0

/-- the rational that a finite double stands for -/
def toRat? : Double → Option Rat
  | .finite q => some q
  | .negativeZero => some 0
  | .infinite _ => none
  | .nan => none

def neg : Double → Double
  | .finite q => if q = 0 then .negativeZero else .finite (-q)
  | .negativeZero => .finite 0
  | .infinite negative => .infinite (!negative)
  | .nan => .nan

/-- the rounded sum; opposite infinities have none, and a sum of nothing is negative only if both terms are -/
def add : Double → Double → Double
  | .nan, _ => .nan
  | _, .nan => .nan
  | .infinite a, .infinite b => if a = b then .infinite a else .nan
  | .infinite a, _ => .infinite a
  | _, .infinite b => .infinite b
  | .negativeZero, .negativeZero => .negativeZero
  | x, y => ofRat (x.toRat?.getD 0 + y.toRat?.getD 0)

def sub (x y : Double) : Double := add x (neg y)

/-- the rounded product; zero times infinity has none -/
def mul (x y : Double) : Double :=
  match x.toRat?, y.toRat? with
  | some p, some q =>
    if p * q = 0 then zero (x.isNegative != y.isNegative) else ofRat (p * q)
  | _, _ =>
    if x = .nan ∨ y = .nan ∨ x.toRat? = some 0 ∨ y.toRat? = some 0 then .nan
    else .infinite (x.isNegative != y.isNegative)

/-- the rounded quotient by a divisor other than zero -/
def div (x y : Double) : Double :=
  match x.toRat?, y.toRat? with
  | some p, some q =>
    if p = 0 then zero (x.isNegative != y.isNegative) else ofRat (p / q)
  | none, some _ => if x = .nan then .nan else .infinite (x.isNegative != y.isNegative)
  | some _, none => if y = .nan then .nan else zero (x.isNegative != y.isNegative)
  | none, none => .nan

instance : Neg Double := ⟨neg⟩
instance : Add Double := ⟨add⟩
instance : Sub Double := ⟨sub⟩
instance : Mul Double := ⟨mul⟩
instance : Div Double := ⟨div⟩

end Double

end Drumline
