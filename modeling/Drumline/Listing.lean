/-
Listings: nested records and lists of numbers and texts, laid out as JSON. Each item stands on a line of its own, two
blanks deeper than what holds it, and fields keep their order. Texts are written in ASCII: characters beyond it as the
numbers of their UTF-16 units in four lower-case hexadecimal digits.
-/
import Drumline.Number.Decimal

namespace Drumline

inductive Listing where
  | int (value : Int)
  | double (value : Double)
  | text (value : String)
  | list (items : List Listing)
  | record (fields : List (String × Listing))
  deriving Repr

namespace Listing

def utf16Units (n : Nat) : List Nat :=
  if n < 0x10000 then [n] else [0xD800 + (n - 0x10000) / 0x400, 0xDC00 + (n - 0x10000) % 0x400]

/-- a character inside quotation marks -/
def escape (c : Char) : List Char :=
  if c = '\x22' ∨ c = '\x5C' then ['\x5C', c]
  else if c = '\n' then ['\x5C', 'n']
  else if c = '\r' then ['\x5C', 'r']
  else if c = '\t' then ['\x5C', 't']
  else if c = '\x08' then ['\x5C', 'b']
  else if c = '\x0C' then ['\x5C', 'f']
  else if ' ' ≤ c ∧ c ≤ '~' then [c]
  else (utf16Units c.toNat).flatMap fun unit => ['\x5C', 'u'] ++ Text.hexDigits 4 unit

def quote (text : String) : String :=
  String.ofList ('\x22' :: text.toList.flatMap escape ++ ['\x22'])

/-- items between brackets, at a depth -/
def bracket (opening closing : String) (depth : Nat) (items : List String) : String :=
  let line := fun (depth : Nat) => "\n" ++ String.ofList (List.replicate (2 * depth) ' ')
  if items = [] then opening ++ closing
  else opening ++ line (depth + 1) ++ String.intercalate ("," ++ line (depth + 1)) items ++ line depth ++ closing

/-- the text of a double; the words for infinity and not-a-number are those of JSON's usual extension -/
def doubleText : Double → String
  | .nan => "NaN"
  | .infinite negative => if negative then "-Infinity" else "Infinity"
  | d => d.text

mutual

/-- the text of a listing that starts at a depth -/
def writeAt (depth : Nat) : Listing → String
  | .int value => toString value
  | .double value => doubleText value
  | .text value => quote value
  | .list items => bracket "[" "]" depth (writeItems (depth + 1) items)
  | .record fields => bracket "\x7b" "\x7d" depth (writeFields (depth + 1) fields)

def writeItems (depth : Nat) : List Listing → List String
  | [] => []
  | item :: items => writeAt depth item :: writeItems depth items

def writeFields (depth : Nat) : List (String × Listing) → List String
  | [] => []
  | (name, value) :: fields => (quote name ++ ": " ++ writeAt depth value) :: writeFields depth fields

end

def write (listing : Listing) : String :=
  writeAt 0 listing

end Listing

end Drumline
