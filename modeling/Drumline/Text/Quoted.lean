/-
Quoted text for messages. A text stands between apostrophes, or between quotation marks if it holds an apostrophe and
no quotation mark. The mark itself and the backslash are escaped with a backslash, line feed, carriage return and tab
by their letters, and every other character without a printed form by its number in lower-case hexadecimal, at the
smallest of the widths two, four and eight.
-/
import Drumline.Text.Printable

namespace Drumline.Text

/-- the lower-case hexadecimal digits of a number, filled up with zeros to a width -/
def hexDigits (width n : Nat) : List Char :=
  let digits := Nat.toDigits 16 n
  List.replicate (width - digits.length) '0' ++ digits

/-- the character that a quoted text stands between -/
def quoteMark (text : List Char) : Char :=
  if '\x27' ∈ text ∧ '\x22' ∉ text then '\x22' else '\x27'

/-- one character as it is written between two quote marks -/
def escapeChar (mark c : Char) : List Char :=
  if c = mark ∨ c = '\x5C' then ['\x5C', c]
  else if c = '\n' then ['\x5C', 'n']
  else if c = '\r' then ['\x5C', 'r']
  else if c = '\t' then ['\x5C', 't']
  else if isPrintable c then [c]
  else if c.toNat < 0x100 then ['\x5C', 'x'] ++ hexDigits 2 c.toNat
  else if c.toNat < 0x10000 then ['\x5C', 'u'] ++ hexDigits 4 c.toNat
  else ['\x5C', 'U'] ++ hexDigits 8 c.toNat

def quote (text : String) : String :=
  let chars := text.toList
  let mark := quoteMark chars
  String.ofList (mark :: chars.flatMap (escapeChar mark) ++ [mark])

end Drumline.Text
