/-
Readers of YAML documents. A reader gives the value of the document that a file holds, or says why there is none. The
program takes a reader as it is: it hands the bytes over, and does not depend on how they are read, nor in which order
a reader finds out what is wrong with them.

Premises on readers, for what is stated of all of them (`Reader.Lawful`):
- a mapping has one value for each key;
- bytes that are not UTF-8 have no value, and no others give a decoding error.
Not among them: that a reader rejects what it does not read (`Reader.Rejects`), and fails in no other way.
-/
import Drumline.Text.Utf8
import Drumline.Number.Basic
import Drumline.Number.Numeral
import Drumline.Value

namespace Drumline.Yaml

/-- why a part of a document has no value, although the document is well formed -/
inductive Defect where
  /-- an escape beyond the last code point -/
  | noCodePoint (code : Nat)
  /-- a number without characters -/
  | emptyNumber
  | badInteger (error : NumeralError)
  | badDouble (text : String)
  | badTruthValue (text : String)
  | arithmetic (error : ArithmeticError)
  /-- a value of a kind that the reader does not know -/
  | unsupported
  /-- any other, by its message -/
  | other (message : String)
  deriving DecidableEq, Repr

def Defect.message : Defect → String
  | .noCodePoint code =>
    if code < 0x80000000 then "chr() arg not in range(0x110000)" else "Python int too large to convert to C int"
  | .emptyNumber => "string index out of range"
  | .badInteger error => error.message
  | .badDouble text => s!"could not convert string to float: {Text.quote text}"
  | .badTruthValue text => Text.quote text
  | .arithmetic error => error.message
  | .unsupported => "unsupported kind of value"
  | .other message => message

/-- why a text has no value -/
inductive Error where
  /-- the reader rejects it: it is no document, or a value in it has the wrong kind -/
  | malformed
  | defective (cause : Defect)
  deriving DecidableEq, Repr

def Error.message : Error → String
  | .malformed => "malformed document"
  | .defective cause => cause.message

/-- why bytes have no value -/
inductive Refusal where
  | undecodable (error : Text.DecodingError)
  | document (error : Error)
  deriving DecidableEq, Repr

/-- from the bytes of a file to the value of its document -/
abbrev Reader := List UInt8 → Except Refusal Value

/-- whether no text is the key of two pairs -/
def Distinct (pairs : List (Value × Value)) : Prop :=
  pairs.Pairwise fun first second => ∀ name, first.1 = .text name → second.1 ≠ .text name

namespace Reader

structure Lawful (reader : Reader) : Prop where
  distinct {raw : List UInt8} {pairs : List (Value × Value)} (h : reader raw = .ok (.mapping pairs)) : Distinct pairs
  decodes {raw : List UInt8} {value : Value} (h : reader raw = .ok value) : ∃ text, Text.decode raw = .ok text
  undecodable {raw : List UInt8} {error : Text.DecodingError} (h : reader raw = .error (.undecodable error)) :
    ∃ fault, Text.decode raw = .error fault

/-- whether what is no document is rejected, and nothing in one is found to be defective -/
def Rejects (reader : Reader) : Prop :=
  ∀ raw cause, reader raw ≠ .error (.document (.defective cause))

end Reader

end Drumline.Yaml
