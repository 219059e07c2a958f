/-
The text of a YAML document: which characters it may hold, where its lines break and where words and lines end. Line
ends are unified before anything else is read, so that a break is a line feed or one of the two Unicode separators.

A cursor is a place in such a text, with what follows and how many lines, columns and characters come before.
-/
import Drumline.Yaml.Reader

namespace Drumline.Yaml

def isAllowed (c : Char) : Bool :=
  let n := c.toNat
  n == 9 || n == 10 || n == 13 || n == 0x85 || (0x20 ≤ n && n ≤ 0x7E) || (0xA0 ≤ n && n ≤ 0xFFFD) || 0x10000 ≤ n

/-- a text with a line feed for every line end of one or two control characters -/
def unifyBreaks : List Char → List Char
  | [] => []
  | '\r' :: '\n' :: rest => '\n' :: unifyBreaks rest
  | c :: rest => (if c = '\r' ∨ c = '\u0085' then '\n' else c) :: unifyBreaks rest

/-- a line break in a text with unified line ends -/
def isBreak (c : Char) : Bool :=
  c == '\n' || c == '\u2028' || c == '\u2029'

def isBlank (c : Char) : Bool :=
  c == ' ' || c == '\t'

def endsLine : List Char → Bool
  | [] => true
  | c :: _ => isBreak c

/-- whether a line ends here or a space follows -/
def endsItem : List Char → Bool
  | [] => true
  | c :: _ => isBreak c || c == ' '

/-- whether a line ends here or a blank follows -/
def endsWord : List Char → Bool
  | [] => true
  | c :: _ => isBreak c || isBlank c

/-- whether a line starts here that separates documents -/
def startsSeparator (mark : Char) : List Char → Bool
  | a :: b :: c :: rest => a == mark && b == mark && c == mark && endsWord rest
  | _ => false

/-- whether a line starts here that separates documents, of either kind -/
def startsAnySeparator (rest : List Char) : Bool :=
  startsSeparator '-' rest || startsSeparator '.' rest

/-- what is left of a line behind spaces and a comment, and the lines behind it; none if the line holds more -/
def skipLineEnd? (rest : List Char) : Option (List Char) :=
  let rest := rest.dropWhile (· == ' ')
  let rest := if rest.head? = some '#' then rest.dropWhile (!isBreak ·) else rest
  if endsLine rest then some rest.tail else none

/-- what line breaks in a row stand for: one line feed for a space, and otherwise the breaks without a first line
feed -/
def foldBreaks (first : Char) (others : List Char) : List Char :=
  if first ≠ '\n' then first :: others
  else if others = [] then [' ']
  else others

structure Cursor where
  rest : List Char
  line : Nat
  column : Nat
  index : Nat

namespace Cursor

def start (text : List Char) : Cursor := ⟨text, 0, 0, 0⟩

/-- a byte order mark takes no column -/
def next (c : Cursor) : Cursor :=
  match c.rest with
  | [] => c
  | a :: rest =>
    if isBreak a then ⟨rest, c.line + 1, 0, c.index + 1⟩
    else ⟨rest, c.line, if a = '\uFEFF' then c.column else c.column + 1, c.index + 1⟩

/-- the place some characters further on -/
def skip (c : Cursor) (count : Nat) : Cursor :=
  Nat.repeat next count c

/-- the place where no more is left than the end of the text given -/
def upTo (c : Cursor) (rest : List Char) : Cursor :=
  c.skip (c.rest.length - rest.length)

end Cursor

end Drumline.Yaml
