/-
Tags, which say what kind of value a node stands for, and how a scalar without a tag gets one from its text: a plain
scalar is a truth value, a number or nothing at all if it reads like one, and a text otherwise.

Whole numbers may be written in base 2 with the mark 0b, in base 8 with a zero in front, in base 16 with the mark 0x and
in base 60 with colons; fractions in base 10 and 60. Underscores may stand among the digits. A date has three numbers
with dashes between them, and perhaps a time of day behind it.
-/
import Drumline.Text.Split
import Drumline.Yaml.Token

namespace Drumline.Yaml

inductive Tag where
  | null | bool | int | float | text | sequence | mapping
  /-- of a key whose value is merged into the mapping -/
  | merge
  /-- of a key for the value of the whole mapping -/
  | value
  /-- of dates, bytes, sets and lists of pairs, which are not read here -/
  | foreign
  /-- of no known name -/
  | unknown
  deriving DecidableEq, Repr

namespace Tag

/-- how the names of all known tags start -/
def common : List Char := "tag:yaml.org,2002:".toList

def ofName (name : List Char) : Tag :=
  if common.isPrefixOf name then
    match String.ofList (name.drop common.length) with
    | "null" => null
    | "bool" => bool
    | "int" => int
    | "float" => float
    | "str" => text
    | "seq" => sequence
    | "map" => mapping
    | "merge" => merge
    | "value" => value
    | "timestamp" | "binary" | "set" | "omap" | "pairs" => foreign
    | _ => unknown
  else unknown

def truthWords : List (String × Bool) :=
  [("yes", true), ("no", false), ("true", true), ("false", false), ("on", true), ("off", false)]

/-- whether a text is a word in lower case, in upper case, or capitalised -/
def isSpelling (chars : List Char) (word : String) : Bool :=
  let word := word.toList
  chars == word || chars == word.map Char.toUpper || chars == word.modifyHead Char.toUpper

/-- a digit, or an underscore among digits -/
def isDigitOr (isDigit : Char → Bool) (c : Char) : Bool := isDigit c || c == '_'

/-- digits and underscores behind a digit -/
def isDigits : List Char → Bool
  | [] => false
  | c :: rest => c.isDigit && rest.all (isDigitOr Char.isDigit)

/-- digits of base 60 behind a colon each, at least one -/
def areSixtieths (parts : List (List Char)) : Bool :=
  parts != [] && parts.all fun
    | [c] => c.isDigit
    | [c, d] => '0' ≤ c && c ≤ '5' && d.isDigit
    | _ => false

/-- a whole number without its sign -/
def isWhole : List Char → Bool
  | '0' :: 'b' :: rest => rest != [] && rest.all (isDigitOr (· ∈ ['0', '1']))
  | '0' :: 'x' :: rest => rest != [] && rest.all (isDigitOr fun c => (hexDigit? c).isSome)
  | '0' :: rest => rest.all (isDigitOr fun c => '0' ≤ c && c ≤ '7')
  | chars =>
    match Text.splitOn ':' chars with
    | [number] => isDigits number
    | number :: parts => isDigits number && areSixtieths parts
    | [] => false

/-- decimal places, perhaps with an exponent -/
def isPlaces (chars : List Char) : Bool :=
  match chars.dropWhile (isDigitOr Char.isDigit) with
  | [] => true
  | e :: sign :: digits => e ∈ ['e', 'E'] && sign ∈ ['-', '+'] && digits != [] && digits.all Char.isDigit
  | _ => false

/-- a fraction, with or without a sign; not-a-number and a fraction without a whole part have none -/
def isFraction (chars : List Char) : Bool :=
  let unsigned := (splitSign chars).2
  let whole := unsigned.takeWhile (· ≠ '.')
  match unsigned.dropWhile (· ≠ '.') with
  | [] => false
  | _ :: places =>
    match Text.splitOn ':' whole with
    | [[]] => isSpelling places "inf" || (chars.head? = some '.' &&
        (places ∈ ["nan", "NaN", "NAN"].map String.toList || (places.head?.any Char.isDigit && isPlaces places)))
    | [number] => isDigits number && isPlaces places
    | number :: parts => isDigits number && areSixtieths parts && places.all (isDigitOr Char.isDigit)
    | [] => false

/-- what follows a number at the front that has some digits, from least to most -/
def afterNumber? (least most : Nat) (chars : List Char) : Option (List Char) :=
  let length := (chars.takeWhile Char.isDigit).length
  if least ≤ length ∧ length ≤ most then some (chars.drop length) else none

/-- what follows a mark at the front -/
def afterMark? (marks : List Char) : List Char → Option (List Char)
  | [] => none
  | c :: rest => if c ∈ marks then some rest else none

/-- the time zone behind a time of day, which may be left out -/
def isZone (chars : List Char) : Bool :=
  let minutes := fun rest => rest == [] || ((afterMark? [':'] rest).bind (afterNumber? 2 2)) == some []
  match chars.dropWhile isBlank with
  | [] => chars == []
  | ['Z'] => true
  | rest => ((afterMark? ['-', '+'] rest).bind (afterNumber? 1 2)).any minutes

/-- a time of day, perhaps with parts of a second -/
def isClock (chars : List Char) : Bool :=
  let seconds := (afterNumber? 1 2 chars).bind (afterMark? [':']) |>.bind (afterNumber? 2 2) |>.bind (afterMark? [':'])
    |>.bind (afterNumber? 2 2)
  seconds.any fun rest => isZone (((afterMark? ['.'] rest).map (·.dropWhile Char.isDigit)).getD rest)

/-- a date, perhaps with a time of day; without one, month and day have two digits -/
def isDate (chars : List Char) : Bool :=
  let month := (afterNumber? 4 4 chars).bind (afterMark? ['-'])
  let rest := fun least => (month.bind (afterNumber? least 2)).bind (afterMark? ['-']) |>.bind (afterNumber? least 2)
  rest 2 == some [] || (rest 1).any fun rest =>
    match rest with
    | 'T' :: clock | 't' :: clock => isClock clock
    | ' ' :: clock | '\t' :: clock => isClock (clock.dropWhile isBlank)
    | _ => false

/-- the tag of a scalar by its text; a line feed at its end does not count -/
def ofText (chars : List Char) : Tag :=
  let word := if chars.getLast? = some '\n' then chars.dropLast else chars
  if chars = [] ∨ word = ['~'] then null
  else if isSpelling word "null" then null
  else if truthWords.any fun (name, _) => isSpelling word name then bool
  else if isFraction word then float
  else if isWhole (splitSign word).2 then int
  else if isDate word then foreign
  else if word = ['<', '<'] then merge
  else if word = ['='] then value
  else if word ∈ [['!'], ['&'], ['*']] then unknown
  else text

end Tag

end Drumline.Yaml
