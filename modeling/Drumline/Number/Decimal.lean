/-
Decimal text of doubles, written and read.

Writing. `Double.shortest?` finds the fewest decimal digits that read back as the same double, and of those the nearest
to it: it tries one digit, then two, up to the seventeen that always suffice, and each time tests the two neighbours of
the value on that decimal grid. `Double.text` lays the digits out as `DecimalLayout` says: positional notation for
decimal exponents from -4 to 15, with at least one digit on either side of the point, and otherwise an exponent with a
sign and at least two digits.

Reading. `readDouble?` accepts a sign, digits with single underscores between them, a point, an exponent and blanks
around all of it, and the words for infinity and not-a-number in any case. The value is rounded once.
-/
import Drumline.Number.Double
import Drumline.Number.Numeral

namespace Drumline

/-- the exponent `k` with `10 ^ k ≤ q < 10 ^ (k + 1)`, for `q > 0` -/
def decimalExponent (q : Rat) : Int :=
  let k : Int := ((Nat.toDigits 10 q.num.natAbs).length : Int) - (Nat.toDigits 10 q.den).length
  if (10 : Rat) ^ k ≤ q then k else k - 1

/-- how a decimal number is laid out -/
structure DecimalLayout where
  /-- the least decimal exponent in positional notation -/
  lowest : Int
  /-- the greatest decimal exponent in positional notation -/
  highest : Int
  /-- the least number of digits of a written exponent -/
  exponentDigits : Nat

/-- the layout of every double that this library writes -/
def DecimalLayout.standard : DecimalLayout := ⟨-4, 15, 2⟩

namespace Double

/-- of the numbers `n * 10 ^ k` with the given count of digits, the nearest to `q > 0` of those that read back as it -/
def onGrid? (q : Rat) (digits : Nat) : Option (Nat × Int) :=
  let k := decimalExponent q - (digits - 1)
  let scaled := q / (10 : Rat) ^ k
  let low := scaled.floor.toNat
  let fits := fun (n : Nat) => ofRat ((n : Rat) * (10 : Rat) ^ k) = .finite q
  if fits low ∧ fits (low + 1) then some ((roundEven scaled).toNat, k)
  else if fits low then some (low, k)
  else if fits (low + 1) then some (low + 1, k)
  else none

/-- the fewest digits that read back as `q > 0`, and their decimal exponent -/
def shortest? (q : Rat) : Option (Nat × Int) :=
  (List.range' 1 17).findSome? (onGrid? q)

end Double

/-- lays `digits * 10 ^ k` out -/
def DecimalLayout.write (layout : DecimalLayout) (digits : Nat) (k : Int) : List Char :=
  let all := Nat.toDigits 10 digits
  let exponent := k + all.length - 1
  let kept := (all.reverse.dropWhile (· = '0')).reverse
  let orZero := fun (l : List Char) => if l = [] then ['0'] else l
  if layout.lowest ≤ exponent ∧ exponent ≤ layout.highest then
    if exponent < 0 then '0' :: '.' :: List.replicate (-exponent - 1).toNat '0' ++ kept
    else
      let whole := (exponent + 1).toNat
      kept.take whole ++ List.replicate (whole - kept.length) '0' ++ '.' :: orZero (kept.drop whole)
  else
    let mantissa := match kept with
      | [] => ['0']
      | [d] => [d]
      | d :: rest => d :: '.' :: rest
    let size := Nat.toDigits 10 exponent.natAbs
    mantissa ++ ['e', if exponent < 0 then '-' else '+'] ++
      List.replicate (layout.exponentDigits - size.length) '0' ++ size

def Double.text : Double → String
  | .nan => "nan"
  | .infinite negative => if negative then "-inf" else "inf"
  | .negativeZero => "-0.0"
  | .finite q =>
    if q = 0 then "0.0"
    else
      let (digits, k) := (Double.shortest? q.abs).getD (0, 0)
      let body := String.ofList (DecimalLayout.standard.write digits k)
      if q < 0 then "-" ++ body else body

/-- the double nearest to `± digits * 10 ^ k`; far beyond the doubles no power is computed -/
def Double.ofDecimal (negative : Bool) (digits : Nat) (k : Int) : Double :=
  let size : Int := k + (Nat.toDigits 10 digits).length
  if digits = 0 ∨ size < -400 then .zero negative
  else if 400 < size then .infinite negative
  else
    let q := (digits : Rat) * (10 : Rat) ^ k
    .ofRat (if negative then -q else q)

def readDouble? (text : String) : Option Double := do
  let (negative, rest) := splitSign (plainNumeral text.toList)
  match String.ofList (rest.map Char.toLower) with
  | "inf" | "infinity" => return .infinite negative
  | "nan" => return .nan
  | _ =>
    let (whole, rest) ← spanDigits Text.asciiDigit? rest
    let (places, rest) ← match rest with
      | '.' :: rest => spanDigits Text.asciiDigit? rest
      | rest => some ([], rest)
    let digits := valueOfDigits 10 (whole ++ places)
    if whole = [] ∧ places = [] then none
    else match rest with
      | [] => return .ofDecimal negative digits (-places.length)
      | e :: rest =>
        if e ≠ 'e' ∧ e ≠ 'E' then none
        else
          let (down, rest) := splitSign rest
          let (size, rest) ← spanDigits Text.asciiDigit? rest
          if size = [] ∨ rest ≠ [] then none
          else
            let k : Int := valueOfDigits 10 size
            return .ofDecimal negative digits ((if down then -k else k) - places.length)

end Drumline
