/-
The tokens of a YAML document, and the readers of those that are no scalars: anchors and aliases, tags and directives.
-/
import Drumline.Text.Utf8
import Drumline.Yaml.Scalar

namespace Drumline.Yaml

/-- what a line that starts with a percent sign says -/
inductive Directive where
  | version (major : Nat)
  | tagHandle (handle tagStart : List Char)
  | other
  deriving DecidableEq, Repr

/-- a tag as it is written: without a handle, it is the whole name -/
structure TagMark where
  handle : Option (List Char)
  suffix : List Char
  deriving DecidableEq, Repr

inductive Token where
  | directive (content : Directive)
  | documentStart
  | documentEnd
  | blockSequenceStart
  | blockMappingStart
  | blockEnd
  | flowSequenceStart
  | flowSequenceEnd
  | flowMappingStart
  | flowMappingEnd
  | blockEntry
  | flowEntry
  | key
  | value
  | alias (name : List Char)
  | anchor (name : List Char)
  | tag (mark : TagMark)
  | scalar (value : List Char) (plain : Bool)
  deriving DecidableEq, Repr

/-- whether a character may stand in the name of an anchor, a directive or a handle -/
def isNameChar (c : Char) : Bool :=
  c.isAlphanum || c == '-' || c == '_'

/-- the name of an anchor, and what follows it -/
def anchorName (rest : List Char) : Except Error (List Char × List Char) :=
  let name := rest.takeWhile isNameChar
  let rest := rest.dropWhile isNameChar
  if name = [] ∨ !(endsWord rest || rest.head?.any (· ∈ ['?', ':', ',', ']', '}', '%', '@', '\x60'])) then
    .error .malformed
  else .ok (name, rest)

/-! ## Tags -/

def isTagChar (c : Char) : Bool :=
  c.isAlphanum || c ∈ "-;/?:@&=+$,_.!~*'()[]%".toList

/-- the bytes of percent escapes at the front, and what follows them -/
def escapedBytes : List Char → Option (List UInt8 × List Char)
  | '%' :: a :: b :: rest => do
    let high ← hexDigit? a
    let low ← hexDigit? b
    let (bytes, rest) ← escapedBytes rest
    return (UInt8.ofNat (high * 16 + low) :: bytes, rest)
  | '%' :: _ => none
  | rest => some ([], rest)

theorem length_le_of_escapedBytes {text rest : List Char} {bytes : List UInt8}
    (h : escapedBytes text = some (bytes, rest)) :
    rest.length ≤ text.length ∧ (bytes ≠ [] → rest.length < text.length) := by
  fun_induction escapedBytes text generalizing bytes rest with
  | case1 a b tail ih =>
    simp only [Option.bind_eq_bind, Option.bind_eq_some_iff, Option.pure_def, Option.some.injEq, Prod.mk.injEq] at h
    obtain ⟨_, _, _, _, ⟨_, _⟩, h, _, rfl⟩ := h
    have := (ih h).1
    simp only [List.length_cons]
    omega
  | case2 => simp at h
  | case3 => simp_all

/-- The characters of a tag, and what follows them. Escaped bytes in a row have to be the text of some characters. -/
def tagChars (rest : List Char) : Except Error (List Char × List Char) :=
  match rest with
  | [] => .ok ([], [])
  | c :: tail =>
    if c = '%' then
      match h : escapedBytes (c :: tail) with
      | none => .error .malformed
      | some ([], _) => .error .malformed
      | some (b :: bytes, after) =>
        have : after.length ≤ tail.length := Nat.le_of_lt_succ ((length_le_of_escapedBytes h).2 (by simp))
        match Text.decode (b :: bytes) with
        | .error _ => .error .malformed
        | .ok chars => (tagChars after).map fun (more, rest) => (chars ++ more, rest)
    else if isTagChar c then (tagChars tail).map fun (more, rest) => (c :: more, rest)
    else .ok ([], c :: tail)
termination_by rest.length

/-- the name or suffix of a tag, which is not empty, and what follows it -/
def tagName (rest : List Char) : Except Error (List Char × List Char) := do
  let (name, rest) ← tagChars rest
  if name = [] then throw .malformed
  return (name, rest)

/-- the handle of a tag: one exclamation mark, or two with a name between them -/
def tagHandle (rest : List Char) : Except Error (List Char × List Char) :=
  match rest with
  | '!' :: rest =>
    if rest.head? = some ' ' then .ok (['!'], rest)
    else
      match rest.dropWhile isNameChar with
      | '!' :: after => .ok ('!' :: rest.takeWhile isNameChar ++ ['!'], after)
      | _ => .error .malformed
  | _ => .error .malformed

/-- a tag from behind its exclamation mark, and what follows it -/
def tagMark (rest : List Char) : Except Error (TagMark × List Char) := do
  let (mark, rest) ← match rest with
    | '<' :: rest => do
      let (name, rest) ← tagName rest
      match rest with
      | '>' :: rest => pure ((⟨none, name⟩ : TagMark), rest)
      | _ => throw .malformed
    | rest =>
      if endsWord rest then pure (⟨none, ['!']⟩, rest)
      else if (rest.takeWhile fun c => !(isBreak c || c == ' ')).contains '!' then do
        let (handle, rest) ← tagHandle ('!' :: rest)
        let (suffix, rest) ← tagName rest
        pure (⟨some handle, suffix⟩, rest)
      else do
        let (suffix, rest) ← tagName rest
        pure (⟨some ['!'], suffix⟩, rest)
  if endsItem rest then return (mark, rest) else throw .malformed

/-! ## Directives -/

def directiveNumber (rest : List Char) : Except Error (Nat × List Char) :=
  let digits := rest.takeWhile Char.isDigit
  if digits = [] then .error .malformed
  else if maxDigits < digits.length then .error (.defective (.badInteger (.tooManyDigits digits.length)))
  else .ok (valueOfDigits 10 (digits.filterMap Text.asciiDigit?), rest.dropWhile Char.isDigit)

/-- a directive from behind its percent sign, and the lines that follow it -/
def directive (rest : List Char) : Except Error (Directive × List Char) := do
  let name := rest.takeWhile isNameChar
  let rest := rest.dropWhile isNameChar
  if name = [] ∨ !endsItem rest then throw .malformed
  let argument := rest.dropWhile (· == ' ')
  let (content, rest) ←
    if name = "YAML".toList then do
      let (major, rest) ← directiveNumber argument
      match rest with
      | '.' :: rest => do
        let (_, rest) ← directiveNumber rest
        if endsItem rest then pure (Directive.version major, rest) else throw .malformed
      | _ => throw .malformed
    else if name = "TAG".toList then do
      let (handle, rest) ← tagHandle argument
      if rest.head? ≠ some ' ' then throw .malformed
      let (tagStart, rest) ← tagName (rest.dropWhile (· == ' '))
      if endsItem rest then pure (Directive.tagHandle handle tagStart, rest) else throw .malformed
    else pure (Directive.other, rest.dropWhile (!isBreak ·))
  match skipLineEnd? rest with
  | none => throw .malformed
  | some rest => return (content, rest)

end Drumline.Yaml
