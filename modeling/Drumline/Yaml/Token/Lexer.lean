/-
From text to tokens. Outside brackets, indentation says where collections start and end: a level of indentation opens
with the first entry or key that stands further right than all before it, and closes with the first token further left.

A mapping key without a mark of its own shows only at the colon behind it. Whatever could be such a key is remembered
as a candidate, one for each depth of brackets; the colon then puts the mark of a key in front of it. A candidate goes
stale with its line and after 1024 characters. Where indentation asks for a key, a candidate that goes stale is an
error.

Tokens are read one by one, as they are asked for. So where reading stops with an error, the tokens in front of it count
all the same, up to the first that could still turn out to be a key.
-/
import Drumline.Yaml.Token

namespace Drumline.Yaml

/-- what could turn out to be a key: its place among the tokens and in the text, and whether it has to be one -/
structure Candidate where
  position : Nat
  required : Bool
  index : Nat
  line : Nat
  column : Nat

/-- how many characters a key without a mark may have -/
def longestKey : Nat := 1024

/-- where reading tokens stands: the depth of brackets, the indentation of the innermost collection and of those around
it, whether a key may start here, and the candidates by their depth -/
structure Lexer where
  cursor : Cursor
  tokens : Array Token := #[]
  depth : Nat := 0
  indent : Int := -1
  outer : List Int := []
  keyAllowed : Bool := true
  candidates : List (Nat × Candidate) := []

namespace Lexer

def emit (x : Lexer) (token : Token) : Lexer :=
  { x with tokens := x.tokens.push token }

def single (x : Lexer) (token : Token) : Lexer :=
  { x.emit token with cursor := x.cursor.next }

def inFlow (x : Lexer) : Bool := x.depth != 0

/-! ## Candidates -/

/-- gives the candidate of the current depth up -/
def dropCandidate (x : Lexer) : Except Error Lexer :=
  if (x.candidates.lookup x.depth).any (·.required) then .error .malformed
  else .ok { x with candidates := x.candidates.filter (·.1 != x.depth) }

def addCandidate (x : Lexer) : Except Error Lexer :=
  if !x.keyAllowed then .ok x
  else x.dropCandidate.map fun x =>
    let candidate : Candidate :=
      { position := x.tokens.size
        required := !x.inFlow && x.indent == x.cursor.column
        index := x.cursor.index
        line := x.cursor.line
        column := x.cursor.column }
    { x with candidates := (x.depth, candidate) :: x.candidates }

/-- whether a candidate can no longer become a key -/
def isStale (x : Lexer) (candidate : Candidate) : Bool :=
  candidate.line != x.cursor.line || longestKey < x.cursor.index - candidate.index

/-- gives stale candidates up -/
def dropStale (x : Lexer) : Except Error Lexer :=
  if x.candidates.any fun c => x.isStale c.2 && c.2.required then .error .malformed
  else .ok { x with candidates := x.candidates.filter fun c => !x.isStale c.2 }

/-! ## Indentation -/

/-- closes the collections that are indented further than a column -/
def closeTo (column : Int) (x : Lexer) : Lexer :=
  if x.inFlow then x else go x.indent x.outer x
where
  go (indent : Int) : List Int → Lexer → Lexer
    | [], x => { x with indent, outer := [] }
    | next :: outer, x =>
      if column < indent then go next outer (x.emit .blockEnd) else { x with indent, outer := next :: outer }

/-- Opens a level of indentation, if a column is further right than the innermost one. The token that starts the
collection goes to a place among the tokens. -/
def openAt (x : Lexer) (column position : Nat) (start : Token) : Lexer :=
  if x.indent < column then
    { x with
      indent := column
      outer := x.indent :: x.outer
      tokens := x.tokens.extract 0 position ++ #[start] ++ x.tokens.extract position }
  else x

def openHere (x : Lexer) (start : Token) : Lexer :=
  x.openAt x.cursor.column x.tokens.size start

/-! ## Tokens -/

/-- how many characters separate two tokens: spaces, breaks and comments -/
def gapLength (inComment : Bool) : List Char → Nat
  | [] => 0
  | c :: rest =>
    if isBreak c then gapLength false rest + 1
    else if inComment then gapLength true rest + 1
    else if c = ' ' then gapLength false rest + 1
    else if c = '#' then gapLength true rest + 1
    else 0

/-- Goes to the next token. A line break allows a key, outside brackets. -/
def skipGap (x : Lexer) : Lexer :=
  let start := if x.cursor.index = 0 ∧ x.cursor.rest.head? = some '\uFEFF' then x.cursor.next else x.cursor
  let cursor := start.skip (gapLength false start.rest)
  { x with cursor, keyAllowed := x.keyAllowed || (!x.inFlow && start.line < cursor.line) }

/-- what separates documents, of some length -/
def separator (x : Lexer) (token : Token) (cursor : Cursor) : Except Error Lexer := do
  let x ← (x.closeTo (-1)).dropCandidate
  return { x.emit token with cursor, keyAllowed := false }

def openFlow (x : Lexer) (token : Token) : Except Error Lexer := do
  let x ← x.addCandidate
  return { x.single token with depth := x.depth + 1, keyAllowed := true }

def closeFlow (x : Lexer) (token : Token) : Except Error Lexer := do
  let x ← x.dropCandidate
  return { x.single token with depth := x.depth - 1, keyAllowed := false }

def flowEntry (x : Lexer) : Except Error Lexer := do
  let x ← x.dropCandidate
  return { x.single .flowEntry with keyAllowed := true }

/-- the mark of an entry or a key; outside brackets it may open a level of indentation, but only where a key may
stand -/
def blockMark (x : Lexer) (start token : Token) (keyAllowed : Bool) : Except Error Lexer := do
  if !x.inFlow && !x.keyAllowed then throw .malformed
  let x ← (if x.inFlow then x else x.openHere start).dropCandidate
  return { x.single token with keyAllowed }

/-- A colon. It makes a key of the candidate, or else stands behind a key with a mark. -/
def value (x : Lexer) : Except Error Lexer :=
  match x.candidates.lookup x.depth with
  | none => x.blockMark .blockMappingStart .value (!x.inFlow)
  | some candidate =>
    let place := candidate.position
    let x := { x with
      candidates := x.candidates.filter (·.1 != x.depth)
      tokens := x.tokens.extract 0 place ++ #[Token.key] ++ x.tokens.extract place }
    let x := if x.inFlow then x else x.openAt candidate.column place .blockMappingStart
    .ok { x.single .value with keyAllowed := false }

/-- a token behind which no key may start, but which may be one; it is read from behind its first character -/
def word {α : Type} (x : Lexer) (read : List Char → Except Error (α × List Char)) (token : α → Token) :
    Except Error Lexer := do
  let x ← x.addCandidate
  let (content, rest) ← read x.cursor.rest.tail
  return { x.emit (token content) with cursor := x.cursor.upTo rest, keyAllowed := false }

def plainScalar (x : Lexer) : Except Error Lexer := do
  let x ← x.addCandidate
  let text := plain x.inFlow (x.indent + 1) x.cursor.rest
  return { x.emit (.scalar text.value true) with cursor := x.cursor.upTo text.rest, keyAllowed := text.lineEnded }

def blockScalar (x : Lexer) (folded : Bool) : Except Error Lexer := do
  let x ← x.dropCandidate
  let (content, rest) ← block folded x.indent x.cursor.rest.tail
  return { x.emit (.scalar content false) with cursor := x.cursor.upTo rest, keyAllowed := true }

/-- the next token, by its first character -/
def token (x : Lexer) (c : Char) (rest : List Char) : Except Error Lexer :=
  let atStart := x.cursor.column = 0
  if c = '%' ∧ atStart then do
    let (content, after) ← directive rest
    x.separator (.directive content) (x.cursor.upTo after)
  else if atStart ∧ startsSeparator '-' (c :: rest) then x.separator .documentStart (x.cursor.skip 3)
  else if atStart ∧ startsSeparator '.' (c :: rest) then x.separator .documentEnd (x.cursor.skip 3)
  else if c = '[' then x.openFlow .flowSequenceStart
  else if c = '{' then x.openFlow .flowMappingStart
  else if c = ']' then x.closeFlow .flowSequenceEnd
  else if c = '}' then x.closeFlow .flowMappingEnd
  else if c = ',' then x.flowEntry
  else if c = '-' ∧ endsWord rest then x.blockMark .blockSequenceStart .blockEntry true
  else if c = '?' ∧ (x.inFlow ∨ endsWord rest) then x.blockMark .blockMappingStart .key (!x.inFlow)
  else if c = ':' ∧ (x.inFlow ∨ endsWord rest) then x.value
  else if c = '*' then x.word anchorName .alias
  else if c = '&' then x.word anchorName .anchor
  else if c = '!' then x.word tagMark .tag
  else if c = '|' ∧ !x.inFlow then x.blockScalar false
  else if c = '>' ∧ !x.inFlow then x.blockScalar true
  else if c = '\x27' ∨ c = '\x22' then x.word (quoted c) (.scalar · false)
  else if startsPlain x.inFlow (c :: rest) then x.plainScalar
  else .error .malformed

/-- reads the next token; at the end of the text gives all of them -/
def next (x : Lexer) : Except Error (Lexer ⊕ List Token) := do
  let x ← x.skipGap.dropStale
  let x := x.closeTo x.cursor.column
  match x.cursor.rest with
  | [] => return .inr (← (x.closeTo (-1)).dropCandidate).tokens.toList
  | c :: rest => return .inl (← x.token c rest)

/-- the tokens that have been read and can no longer change -/
def settled (x : Lexer) : List Token :=
  let waiting := (x.candidates.filter fun c => !x.isStale c.2).map (·.2.position)
  x.tokens.toList.take (waiting.foldl min x.tokens.size)

end Lexer

/-- the tokens at the front of a text, and the error behind them if they do not reach its end -/
structure Tokens where
  front : List Token
  failure : Option Error

/-- All tokens from here on. Every token takes at least one character, so a count beyond that of the characters is
enough. -/
def Lexer.run : Nat → Lexer → Tokens
  | 0, x => ⟨x.settled, some .malformed⟩
  | count + 1, x =>
    match x.next with
    | .error error => ⟨x.settled, some error⟩
    | .ok (.inl x) => run count x
    | .ok (.inr all) => ⟨all, none⟩

def tokensOf (text : List Char) : Tokens :=
  if text.all isAllowed then
    let text := unifyBreaks text
    Lexer.run (text.length + 1) { cursor := Cursor.start text }
  else ⟨[], some .malformed⟩

end Drumline.Yaml
