/-
Reading pattern text. Each line holds a key and the symbols of its steps, separated by blanks:

    BD x---x---x---x---
    SD ----x-------f---
    AC ----x-------x-x-

A line of fewer than two words says nothing. The key is a drum name, a note number or the key of the accent line; a
line with any other key is skipped with a warning. The shortest line that is not skipped sets the length of the pattern
and cuts the others, and the last accent line holds, though each of them counts for the length.

`readLine` gives one line its meaning, `readLines` those of a text up to a number with too many digits, which no later
line can mend, and `assemble` cuts the lines to one length.
-/
import Drumline.Kit
import Drumline.Number.Numeral
import Drumline.Pattern.Basic

namespace Drumline

inductive KeyError where
  /-- neither a drum name nor a whole number -/
  | unknown (key : String)
  /-- a whole number too long to be read -/
  | unreadable (error : NumeralError)
  deriving DecidableEq, Repr

def KeyError.message : KeyError → String
  | .unknown key => "Unknown drum name or note number " ++ Text.quote key
  | .unreadable error => error.message

/-- the digits of a whole number in plain notation: a sign, perhaps, and the digits 0 to 9 -/
def plainDigits? (key : List Char) : Option (Bool × List Nat) :=
  let (negative, rest) := splitSign key
  match rest.mapM Text.asciiDigit? with
  | some (d :: ds) => some (negative, d :: ds)
  | _ => none

def resolveNote (key : List Char) : Except KeyError Int :=
  match Drum.ofKey? key with
  | some drum => .ok drum.note
  | none =>
    match plainDigits? key with
    | none => .error (.unknown (String.ofList key))
    | some (negative, digits) =>
      if maxDigits < digits.length then .error (.unreadable (.tooManyDigits digits.length))
      else
        let n : Int := valueOfDigits 10 digits
        .ok (if negative then -n else n)

/-- a line that counts -/
inductive Entry where
  | accents (mask : List Bool)
  | hit (line : Hit)
  deriving DecidableEq, Repr

def Entry.length : Entry → Nat
  | .accents mask => mask.length
  | .hit line => line.steps.length

/-- the meaning of a line; none if it says nothing -/
def readLine (line : List Char) : Except KeyError (Option Entry) :=
  match Text.splitBlanks line with
  | key :: steps :: _ =>
    if Text.isWord accentKey key then .ok (some (.accents (accentMask steps)))
    else (resolveNote key).map fun note => some (.hit ⟨note, steps⟩)
  | _ => .ok none

/-- a line that is skipped, by its number from one on, and the key that it is skipped for -/
structure SkippedLine where
  line : Nat
  key : String
  deriving DecidableEq, Repr

/-- the entries of the lines from a number on, and the lines skipped among them -/
def readLines : Nat → List (List Char) → List SkippedLine × Except NumeralError (List Entry)
  | _, [] => ([], .ok [])
  | number, line :: lines =>
    match readLine line with
    | .error (.unreadable error) => ([], .error error)
    | .error (.unknown key) =>
      let (skipped, entries) := readLines (number + 1) lines
      (⟨number, key⟩ :: skipped, entries)
    | .ok entry =>
      let (skipped, entries) := readLines (number + 1) lines
      (skipped, entries.map (entry.toList ++ ·))

namespace Pattern

/-- the pattern of some entries: all cut to the shortest, of the accent masks only the last -/
def assemble (entries : List Entry) : Pattern :=
  let length := (entries.map Entry.length).min?.getD 0
  { hits := entries.filterMap fun
      | .hit line => some { line with steps := line.steps.take length }
      | .accents _ => none
    accents := ((entries.filterMap fun
      | .accents mask => some mask
      | .hit _ => none).getLast?.getD []).take length
    length := length }

/-- what reading a text gives: the lines skipped on the way, and the pattern -/
structure Reading where
  skipped : List SkippedLine
  result : Except NumeralError Pattern

def parse (content : List Char) : Reading :=
  let (skipped, entries) := readLines 1 (Text.splitLines content)
  ⟨skipped, entries.map assemble⟩

end Pattern

end Drumline
