/-
Numbers as they are typed by hand: whole numbers of any size, and doubles. Arithmetic on two whole numbers stays
exact, except for the quotient; as soon as a double takes part the result is a double. Comparison is exact across
both kinds.

What arithmetic refuses is an `ArithmeticError`: a zero divisor, a whole number beyond the doubles where a double is
needed, and a double without an integer part where an integer is needed.
-/
import Drumline.Number.Double

namespace Drumline

inductive Number where
  | int (value : Int)
  | double (value : Double)
  deriving DecidableEq, Repr, Inhabited

inductive ArithmeticError where
  /-- a zero divisor; the flag tells whether a double took part -/
  | divisionByZero (inDoubles : Bool)
  /-- the integer part of what is not a number -/
  | integerOfNan
  /-- the integer part of an infinity -/
  | integerOfInfinity
  /-- a whole number beyond the doubles, used with a double -/
  | integerTooLarge
  /-- a quotient of whole numbers beyond the doubles -/
  | quotientTooLarge
  deriving DecidableEq, Repr

def ArithmeticError.message : ArithmeticError → String
  | .divisionByZero false => "division by zero"
  | .divisionByZero true => "float division by zero"
  | .integerOfNan => "cannot convert float NaN to integer"
  | .integerOfInfinity => "cannot convert float infinity to integer"
  | .integerTooLarge => "int too large to convert to float"
  | .quotientTooLarge => "integer division result too large for a float"

namespace Double

/-- the integer part, rounded toward zero -/
def toInt : Double → Except ArithmeticError Int
  | .finite q => .ok (truncate q)
  | .negativeZero => .ok 0
  | .infinite _ => .error .integerOfInfinity
  | .nan => .error .integerOfNan

/-- the nearest integer; a half goes to the even neighbour -/
def roundToInt : Double → Except ArithmeticError Int
  | .finite q => .ok (roundEven q)
  | .negativeZero => .ok 0
  | .infinite _ => .error .integerOfInfinity
  | .nan => .error .integerOfNan

end Double

namespace Number

instance : OfNat Number n := ⟨.int n⟩
instance : Coe Int Number := ⟨.int⟩

def toDouble : Number → Except ArithmeticError Double
  | .double d => .ok d
  | .int n =>
    match Double.ofRat n with
    | .infinite _ => .error .integerTooLarge
    | d => .ok d

def add : Number → Number → Except ArithmeticError Number
  | .int a, .int b => .ok (.int (a + b))
  | a, b => return .double ((← a.toDouble) + (← b.toDouble))

def sub : Number → Number → Except ArithmeticError Number
  | .int a, .int b => .ok (.int (a - b))
  | a, b => return .double ((← a.toDouble) - (← b.toDouble))

/-- The quotient, always a double. That of two whole numbers is rounded once, whatever their size. -/
def div : Number → Number → Except ArithmeticError Double
  | .int a, .int b =>
    if b = 0 then .error (.divisionByZero false)
    else if a = 0 then .ok (Double.zero (b < 0))
    else match Double.ofRat ((a : Rat) / b) with
      | .infinite _ => .error .quotientTooLarge
      | d => .ok d
  | a, b => do
    let x ← a.toDouble
    let y ← b.toDouble
    if y.toRat? = some 0 then .error (.divisionByZero true) else return x / y

/-- the place of a number in the order of all numbers: below, among or above the rationals -/
def position : Number → Option (Int × Rat)
  | .int n => some (0, n)
  | .double (.infinite negative) => some (if negative then -1 else 1, 0)
  | .double .nan => none
  | .double d => d.toRat?.map (0, ·)

/-- exact comparison; what is not a number is less than nothing -/
def lt (a b : Number) : Bool :=
  match a.position, b.position with
  | some (i, p), some (j, q) => i < j || (i == j && p < q)
  | _, _ => false

/-- exact comparison; what is not a number is not even at most itself -/
def le (a b : Number) : Bool :=
  match a.position, b.position with
  | some (i, p), some (j, q) => i < j || (i == j && p ≤ q)
  | _, _ => false

/-- exact equality of value, across both kinds and both zeros -/
def eqv (a b : Number) : Bool :=
  match a.position, b.position with
  | some p, some q => p == q
  | _, _ => false

@[simp] theorem add_int (a b : Int) : add (.int a) (.int b) = .ok (.int (a + b)) := rfl
@[simp] theorem position_int (a : Int) : (Number.int a).position = some (0, (a : Rat)) := rfl

end Number

end Drumline
