/-
The three kinds of scalars in a document, each from its text to the value that the text stands for. Quoted scalars end
at their closing mark, plain ones where something else may start, and block scalars where a line is indented less than
they are.

Each reader takes one character or line at a time and keeps in its state what it still has to decide: the blanks that
count only if the line goes on, and the breaks that count as one space if only one line ends.
-/
import Drumline.Yaml.Text

namespace Drumline.Yaml

/-! ## Quoted scalars -/

/-- the characters that a backslash and another character stand for -/
def escapes : List (Char × Char) :=
  [('0', '\x00'), ('a', '\x07'), ('b', '\x08'), ('t', '\t'), ('\t', '\t'), ('n', '\n'), ('v', '\x0B'), ('f', '\x0C'),
   ('r', '\r'), ('e', '\x1B'), (' ', ' '), ('\x22', '\x22'), ('\x5C', '\x5C'), ('/', '/'), ('N', '\u0085'),
   ('_', '\u00A0'), ('L', '\u2028'), ('P', '\u2029')]

/-- how many hexadecimal digits follow a letter behind a backslash -/
def escapeLengths : List (Char × Nat) := [('x', 2), ('u', 4), ('U', 8)]

def hexDigit? (c : Char) : Option Nat :=
  (letterDigit? c).filter (· < 16)

/-- where reading a quoted scalar stands -/
inductive QuoteState where
  /-- in a line, behind blanks that count only if the line goes on -/
  | line (blanks : List Char)
  /-- behind line breaks; the first is missing if it was escaped -/
  | breaks (first : Option Char) (others : List Char)
  /-- behind the first of two marks -/
  | doubled
  /-- behind a backslash -/
  | escape
  /-- among hexadecimal digits -/
  | hex (owed value : Nat)

/-- what an ordinary character of a quoted scalar stands for, and the state behind it; none if it closes the scalar -/
def quotedChar (mark c : Char) (next : Option Char) : Option (List Char × QuoteState) :=
  if c = mark then
    if mark = '\x27' ∧ next = some mark then some ([], .doubled) else none
  else if c = '\x5C' ∧ mark = '\x22' then some ([], .escape)
  else some ([c], .line [])

/-- the value of a quoted scalar from a state on, and what follows it -/
def quotedFrom (mark : Char) : QuoteState → List Char → Except Error (List Char × List Char)
  | _, [] => .error .malformed
  | .line blanks, c :: rest =>
    if isBlank c then quotedFrom mark (.line (blanks ++ [c])) rest
    else if isBreak c then
      if startsAnySeparator rest then .error .malformed else quotedFrom mark (.breaks (some c) []) rest
    else match quotedChar mark c rest.head? with
      | none => .ok (blanks, rest)
      | some (out, state) => do
        let (value, rest) ← quotedFrom mark state rest
        return (blanks ++ out ++ value, rest)
  | .breaks first others, c :: rest =>
    if isBlank c then quotedFrom mark (.breaks first others) rest
    else if isBreak c then
      if startsAnySeparator rest then .error .malformed else quotedFrom mark (.breaks first (others ++ [c])) rest
    else
      let folded := first.elim others (foldBreaks · others)
      match quotedChar mark c rest.head? with
      | none => .ok (folded, rest)
      | some (out, state) => do
        let (value, rest) ← quotedFrom mark state rest
        return (folded ++ out ++ value, rest)
  | .doubled, c :: rest => do
    let (value, rest) ← quotedFrom mark (.line []) rest
    return (c :: value, rest)
  | .escape, c :: rest =>
    if isBreak c then
      if startsAnySeparator rest then .error .malformed else quotedFrom mark (.breaks none []) rest
    else match escapes.lookup c, escapeLengths.lookup c with
      | some d, _ => do
        let (value, rest) ← quotedFrom mark (.line []) rest
        return (d :: value, rest)
      | none, some length => quotedFrom mark (.hex length 0) rest
      | none, none => .error .malformed
  | .hex owed value, c :: rest =>
    match hexDigit? c with
    | none => .error .malformed
    | some digit =>
      let code := value * 16 + digit
      if 1 < owed then quotedFrom mark (.hex (owed - 1) code) rest
      else if 0x10FFFF < code then .error (.defective (.noCodePoint code))
      -- a text here holds no surrogates
      else if !code.isValidChar then .error (.defective .unsupported)
      else do
        let (value, rest) ← quotedFrom mark (.line []) rest
        return (Char.ofNat code :: value, rest)

/-- the value of a quoted scalar from behind its opening mark, and what follows it -/
def quoted (mark : Char) (rest : List Char) : Except Error (List Char × List Char) :=
  quotedFrom mark (.line []) rest

/-! ## Plain scalars -/

/-- whether a plain scalar ends before a character; inside brackets, more characters end it -/
def endsPlain (inFlow : Bool) (c : Char) (rest : List Char) : Bool :=
  isBlank c || isBreak c
    || (c == ':' && (endsWord rest || (inFlow && (rest.head?.any (· ∈ [',', '[', ']', '{', '}'])))))
    || (inFlow && c ∈ [',', '?', '[', ']', '{', '}'])

/-- where reading a plain scalar stands -/
inductive PlainState where
  | word
  /-- behind spaces in a line -/
  | spaces (count : Nat)
  /-- behind line breaks and, in the last line, some spaces -/
  | breaks (first : Char) (others : List Char) (column : Nat)

/-- what is read of a plain scalar: its value, what follows it, and whether a line has ended behind it -/
structure PlainText where
  value : List Char
  rest : List Char
  lineEnded : Bool

/-- the value with something in front -/
def PlainText.prepend (front : List Char) (text : PlainText) : PlainText :=
  { text with value := front ++ text.value }

/-- the value of a plain scalar from a state on; outside brackets, its lines are indented at least as far as given -/
def plainFrom (inFlow : Bool) (indent : Int) : PlainState → List Char → PlainText
  | state, [] => ⟨[], [], match state with | .breaks .. => true | _ => false⟩
  | .word, c :: rest =>
    if c = ' ' then plainFrom inFlow indent (.spaces 1) rest
    else if isBreak c then
      if startsAnySeparator rest then ⟨[], rest, true⟩ else plainFrom inFlow indent (.breaks c [] 0) rest
    else if endsPlain inFlow c rest then ⟨[], c :: rest, false⟩
    else (plainFrom inFlow indent .word rest).prepend [c]
  | .spaces count, c :: rest =>
    if c = ' ' then plainFrom inFlow indent (.spaces (count + 1)) rest
    else if isBreak c then
      if startsAnySeparator rest then ⟨[], rest, true⟩ else plainFrom inFlow indent (.breaks c [] 0) rest
    else if c = '#' ∨ endsPlain inFlow c rest then ⟨[], c :: rest, false⟩
    else (plainFrom inFlow indent .word rest).prepend (List.replicate count ' ' ++ [c])
  | .breaks first others column, c :: rest =>
    if c = ' ' then plainFrom inFlow indent (.breaks first others (column + 1)) rest
    else if isBreak c then
      if startsAnySeparator rest then ⟨[], rest, true⟩
      else plainFrom inFlow indent (.breaks first (others ++ [c]) 0) rest
    else if c = '#' ∨ (!inFlow ∧ column < indent) ∨ endsPlain inFlow c rest then ⟨[], c :: rest, true⟩
    else
      let text := plainFrom inFlow indent .word rest
      text.prepend (foldBreaks first others ++ [c])

def plain (inFlow : Bool) (indent : Int) (rest : List Char) : PlainText :=
  plainFrom inFlow indent .word rest

/-- the characters that start something else than a plain scalar -/
def indicators : List Char :=
  [',', '[', ']', '{', '}', '#', '&', '*', '!', '|', '>', '\x27', '\x22', '%', '@', '\x60']

/-- whether a plain scalar may start here -/
def startsPlain (inFlow : Bool) : List Char → Bool
  | [] => false
  | c :: rest =>
    if c ∈ ['-', '?', ':'] then !endsWord rest && (c == '-' || !inFlow)
    else !(isBlank c || isBreak c || c ∈ indicators)

/-! ## Block scalars -/

/-- a line, and the break that ends it -/
structure Line where
  text : List Char
  ending : Option Char

def linesOf : List Char → List Line
  | [] => []
  | c :: rest =>
    if isBreak c then ⟨[], some c⟩ :: linesOf rest
    else match linesOf rest with
      | [] => [⟨[c], none⟩]
      | line :: lines => { line with text := c :: line.text } :: lines

def Line.join (lines : List Line) : List Char :=
  lines.flatMap fun line => line.text ++ line.ending.toList

/-- how many spaces a line starts with -/
def Line.indent (line : Line) : Nat :=
  (line.text.takeWhile (· == ' ')).length

/-- what becomes of the breaks at the end of a block scalar -/
inductive Chomping where
  | strip | clip | keep
  deriving DecidableEq

/-- how a block scalar starts: what becomes of its last breaks, and how far it is indented, if it says so -/
structure BlockHeader where
  chomping : Chomping
  increment : Option Nat

def chompingMark : List Char → Option Chomping × List Char
  | '+' :: rest => (some .keep, rest)
  | '-' :: rest => (some .strip, rest)
  | rest => (none, rest)

/-- reads a mark for the indentation, which is a digit other than zero -/
def incrementMark : List Char → Option Nat × List Char
  | c :: rest => if c.isDigit then (some (c.toNat - '0'.toNat), rest) else (none, c :: rest)
  | [] => (none, [])

/-- the start of a block scalar from behind its first character, and the lines that follow; its two marks may stand in
either order -/
def blockHeader (rest : List Char) : Except Error (BlockHeader × List Char) := do
  let (first, rest) := chompingMark rest
  let (increment, rest) := incrementMark rest
  let (second, rest) := if first.isNone && increment.isSome then chompingMark rest else (none, rest)
  if increment = some 0 ∨ !endsItem rest then throw .malformed
  match skipLineEnd? rest with
  | none => throw .malformed
  | some rest => return (⟨(first.or second).getD .clip, increment⟩, rest)

/-- how far a block scalar is indented that does not say so: as far as its first line that holds more than spaces, or an
empty line before it, whichever is further -/
def detectedIndent : List Line → Nat
  | [] => 0
  | line :: lines =>
    if line.indent = line.text.length ∧ line.ending.isSome then max line.indent (detectedIndent lines) else line.indent

/-- where reading a block scalar stands: the break of the line before and the breaks of empty lines since, and whether
that line started without a blank -/
structure BlockState where
  last : List Char
  breaks : List Char
  flush : Bool

/-- what stands between two lines of a block scalar, besides the breaks of empty lines -/
def BlockState.joint (state : BlockState) (folded : Bool) (text : List Char) : List Char :=
  if folded ∧ state.last = ['\n'] ∧ state.flush ∧ !text.head?.any isBlank then
    if state.breaks = [] then [' '] else []
  else state.last

/-- what stands at the end of a block scalar -/
def BlockState.finish (state : BlockState) : Chomping → List Char
  | .strip => []
  | .clip => state.last
  | .keep => state.last ++ state.breaks

/-- the value of a block scalar from a state on, and the lines that follow it -/
def blockLines (folded : Bool) (chomping : Chomping) (indent : Nat) : BlockState → List Line → List Char × List Line
  | state, [] => (state.finish chomping, [])
  | state, line :: lines =>
    let text := line.text.drop indent
    if line.indent = line.text.length ∧ line.text.length ≤ indent ∧ line.ending.isSome then
      blockLines folded chomping indent { state with breaks := state.breaks ++ line.ending.toList } lines
    else if indent ≤ line.indent ∧ text ≠ [] then
      let (value, rest) := blockLines folded chomping indent
        ⟨line.ending.toList, [], !text.head?.any isBlank⟩ lines
      (state.joint folded text ++ state.breaks ++ text ++ value, rest)
    else (state.finish chomping, line :: lines)
/-- the value of a block scalar from behind its first character, and what follows it -/
def block (folded : Bool) (indent : Int) (rest : List Char) : Except Error (List Char × List Char) := do
  let (header, rest) ← blockHeader rest
  let lines := linesOf rest
  let least := max 1 (indent + 1).toNat
  let indent := match header.increment with
    | some n => least + n - 1
    | none => max least (detectedIndent lines)
  let (value, lines) := blockLines folded header.chomping indent ⟨[], [], true⟩ lines
  return (value, Line.join lines)

end Drumline.Yaml
