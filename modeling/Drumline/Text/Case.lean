/-
Upper case, as far as it decides whether a text is one of a few ASCII words. Besides the letters a to z, ten characters
have an upper-case form made of ASCII letters alone; the form of every other character has a part outside ASCII, so the
character may stand for itself in such a comparison.
-/
namespace Drumline.Text

/-- the upper-case form of a character where that is ASCII, and otherwise the character -/
def upperAscii (c : Char) : List Char :=
  match c.toNat with
  | 0xDF => ['S', 'S']
  | 0x131 => ['I']
  | 0x17F => ['S']
  | 0xFB00 => ['F', 'F']
  | 0xFB01 => ['F', 'I']
  | 0xFB02 => ['F', 'L']
  | 0xFB03 => ['F', 'F', 'I']
  | 0xFB04 => ['F', 'F', 'L']
  | 0xFB05 => ['S', 'T']
  | 0xFB06 => ['S', 'T']
  | _ => [c.toUpper]

/-- of an ASCII character it is the upper-case form of core -/
theorem upperAscii_of_lt {c : Char} (h : c.toNat < 128) : upperAscii c = [c.toUpper] := by
  unfold upperAscii
  split <;> first | omega | rfl

/-- whether the upper-case form of a text is a given word of ASCII capitals -/
def isWord (word : String) (text : List Char) : Bool :=
  text.flatMap upperAscii == word.toList

end Drumline.Text
