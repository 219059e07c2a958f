/-
Whole numbers as text. A numeral is a sign, perhaps, and digits of any script, with single underscores between them and
blanks around the whole; in the bases 2, 8 and 16 the usual mark of the base may stand in front of the digits.

A text of more than 4300 digits is neither read nor written in base 10: `NumeralError.tooManyDigits` and
`writeInteger`. That limit comes before the question whether anything else stands behind the digits.
-/
import Drumline.Text.Blank
import Drumline.Text.DecimalDigit
import Drumline.Text.Quoted

namespace Drumline

/-- the most decimal digits that are read or written -/
def maxDigits : Nat := 4300

inductive NumeralError where
  | malformed (base : Nat) (text : String)
  | tooManyDigits (digits : Nat)
  deriving DecidableEq, Repr

/-- a text that is no numeral is shown in quotes, at most 200 characters of it -/
def NumeralError.message : NumeralError → String
  | .malformed base text =>
    s!"invalid literal for int() with base {base}: " ++ ((Text.quote text).take 200).toString
  | .tooManyDigits digits =>
    s!"Exceeds the limit ({maxDigits} digits) for integer string conversion: value has {digits} digits; " ++
      "use sys.set_int_max_str_digits() to increase the limit"

/-- a whole number with more digits than are written -/
structure UnwritableInteger where
  value : Int
  deriving DecidableEq, Repr

def UnwritableInteger.message (_ : UnwritableInteger) : String :=
  s!"Exceeds the limit ({maxDigits} digits) for integer string conversion; " ++
    "use sys.set_int_max_str_digits() to increase the limit"

/-- the value of a row of digits, most significant first -/
def valueOfDigits (base : Nat) (digits : List Nat) : Nat :=
  digits.foldl (fun n d => base * n + d) 0

/-- the value of a digit or letter in bases up to 36 -/
def letterDigit? (c : Char) : Option Nat :=
  if c.isDigit then some (c.toNat - '0'.toNat)
  else if 'a' ≤ c ∧ c ≤ 'z' then some (c.toNat - 'a'.toNat + 10)
  else if 'A' ≤ c ∧ c ≤ 'Z' then some (c.toNat - 'A'.toNat + 10)
  else none

/-- a blank that may surround a numeral; the four ASCII separators may not -/
def isNumeralBlank (c : Char) : Bool :=
  Text.isBlank c && !(28 ≤ c.toNat && c.toNat ≤ 31)

/-- the numeral without surrounding blanks, each decimal digit in its ASCII form -/
def plainNumeral (text : List Char) : List Char :=
  let inner := ((text.dropWhile isNumeralBlank).reverse.dropWhile isNumeralBlank).reverse
  inner.map fun c => (Text.digitValue? c).elim c Nat.digitChar

/-- splits a sign off; the flag tells whether it is a minus -/
def splitSign : List Char → Bool × List Char
  | '-' :: rest => (true, rest)
  | '+' :: rest => (false, rest)
  | rest => (false, rest)

/-- splits the mark of the base off, together with one underscore behind it -/
def splitBaseMark (base : Nat) : List Char → List Char
  | text@('0' :: letter :: rest) =>
    if (base = 16 ∧ (letter = 'x' ∨ letter = 'X')) ∨ (base = 8 ∧ (letter = 'o' ∨ letter = 'O')) ∨
        (base = 2 ∧ (letter = 'b' ∨ letter = 'B')) then
      match rest with
      | '_' :: rest => rest
      | rest => rest
    else text
  | text => text

/-- the digits at the front, single underscores between them, and what follows; none if an underscore follows a digit
without standing between two of them -/
def spanDigits (digit? : Char → Option Nat) : List Char → Option (List Nat × List Char)
  | [] => some ([], [])
  | c :: rest =>
    match digit? c with
    | none => some ([], c :: rest)
    | some d =>
      match rest with
      | '_' :: next :: rest =>
        if (digit? next).isSome then (spanDigits digit? (next :: rest)).map fun (ds, r) => (d :: ds, r) else none
      | ['_'] => none
      | rest => (spanDigits digit? rest).map fun (ds, r) => (d :: ds, r)

/-- reads a whole number in a base from 2 to 36 -/
def readInteger (base : Nat) (text : String) : Except NumeralError Int :=
  let (negative, rest) := splitSign (plainNumeral text.toList)
  let digit? := fun c => (letterDigit? c).filter (· < base)
  match spanDigits digit? (splitBaseMark base rest) with
  | none => .error (.malformed base text)
  | some (digits, rest) =>
    if base = 10 ∧ maxDigits < digits.length then .error (.tooManyDigits digits.length)
    else if digits = [] ∨ rest ≠ [] then .error (.malformed base text)
    else
      let n : Int := valueOfDigits base digits
      .ok (if negative then -n else n)

def writeInteger (n : Int) : Except UnwritableInteger String :=
  if (toString n.natAbs).length ≤ maxDigits then .ok (toString n) else .error ⟨n⟩

end Drumline
