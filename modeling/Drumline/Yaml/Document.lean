/-
A reader of YAML documents, `Yaml.reader`. Scalars become nothing, truth values, numbers and texts, and collections
lists and mappings, in which the last of several equal keys counts.

Where several nodes have no value, the error is that of the one closest to the root, and of equally close ones the
first; what a collection is wrong about itself counts as a fault of its items.

Left out are dates, bytes, sets, lists of pairs, collections that contain themselves and escapes for surrogates: a
document with one of these is well formed, but has no value here (`Defect.unsupported`). All bytes are decoded, and all
characters looked at, before the first token is read. So bytes that are no text come before any other fault, however
far behind it they stand.
-/
import Drumline.Number.Decimal
import Drumline.Text.LowerCase
import Drumline.Yaml.Node

namespace Drumline.Yaml

/-! ## Scalars -/

/-- a number without its sign, from most significant parts of base 60 to least -/
def sixtieths (parts : List Int) : Int :=
  parts.foldl (fun n part => n * 60 + part) 0

def readNumeral (base : Nat) (digits : List Char) : Except Error Int :=
  (readInteger base (String.ofList digits)).mapError fun error => .defective (.badInteger error)

def readUnsigned (digits : List Char) : Except Error Int :=
  match digits with
  | [] => .error (.defective .emptyNumber)
  | '0' :: 'b' :: rest => readNumeral 2 rest
  | '0' :: 'x' :: rest => readNumeral 16 rest
  | '0' :: _ => readNumeral 8 digits
  | _ =>
    if ':' ∈ digits then ((Text.splitOn ':' digits).mapM (readNumeral 10)).map sixtieths
    else readNumeral 10 digits

/-- reads a whole number; underscores do not count -/
def readWhole (text : List Char) : Except Error Int :=
  let (negative, digits) := splitSign (text.filter (· ≠ '_'))
  (readUnsigned digits).map fun n => if negative then -n else n

def readDecimal (digits : List Char) : Except Error Double :=
  let text := String.ofList digits
  (readDouble? text).elim (.error (.defective (.badDouble text))) .ok

/-- a fraction from its parts in base 60, the least significant first, the first of which counts as many units -/
def sumSixtieths (unit : Nat) (sum : Double) : List Double → Except Error Double
  | [] => .ok sum
  | part :: parts => do
    let factor ← ((Number.int unit).toDouble).mapError fun error => .defective (.arithmetic error)
    sumSixtieths (unit * 60) (sum + part * factor) parts

/-- reads a fraction without its sign -/
def readSize (digits : List Char) : Except Error Double :=
  if digits = ".inf".toList then .ok (.infinite false)
  else if digits = ".nan".toList then .ok .nan
  else if ':' ∈ digits then do
    let parts ← (Text.splitOn ':' digits).mapM readDecimal
    sumSixtieths 1 (.finite 0) parts.reverse
  else readDecimal digits

/-- reads a fraction; underscores and the case of letters do not count -/
def readFraction (text : List Char) : Except Error Double :=
  let digits := Text.lower (text.filter (· ≠ '_'))
  if digits = [] then .error (.defective .emptyNumber)
  else
    let (negative, digits) := splitSign digits
    (readSize digits).map fun size => if negative then -size else size

/-- reads a truth value, in any case -/
def readTruth (text : List Char) : Except Error Bool :=
  let word := String.ofList (Text.lower text)
  (Tag.truthWords.lookup word).elim (.error (.defective (.badTruthValue word))) .ok

def scalarValue (tag : Tag) (text : List Char) : Except Error Value :=
  match tag with
  | .null => .ok .null
  | .bool => (readTruth text).map .bool
  | .int => (readWhole text).map .int
  | .float => (readFraction text).map .double
  | .text => .ok (.text (String.ofList text))
  | .foreign => .error (.defective .unsupported)
  | _ => .error .malformed

/-! ## Collections -/

/-- a fault, and its distance from the root -/
abbrev Fault := Nat × Error

/-- two results, or the fault that is closer to the root -/
def both {α β : Type} : Except Fault α → Except Fault β → Except Fault (α × β)
  | .ok a, .ok b => .ok (a, b)
  | .ok _, .error e => .error e
  | .error e, .ok _ => .error e
  | .error e, .error f => .error (if f.1 < e.1 then f else e)

/-- pairs of a mapping with one more, the value of which takes the place of that of an equal key -/
def insertPair (pairs : List (Value × Value)) (key value : Value) : List (Value × Value) :=
  if pairs.any fun (other, _) => other.sameKey key then
    pairs.map fun (other, old) => (other, if other.sameKey key then value else old)
  else pairs ++ [(key, value)]

/-- whether the value of a node is a list or a mapping, and so no key -/
def Node.isCollection (node : Node) : Bool :=
  node.tag == .sequence || node.tag == .mapping

mutual

/-- the value of a node at a distance from the root -/
def Node.valueAt (distance : Nat) : Node → Except Fault Value
  | .scalar .sequence _ | .scalar .mapping _ => .error (distance + 1, .malformed)
  | .scalar tag text => (scalarValue tag text).mapError (distance, ·)
  | .sequence .sequence items => (itemValues (distance + 1) items).map .list
  | .sequence .mapping _ => .error (distance + 1, .malformed)
  | .sequence .. => .error (distance, .malformed)
  | .mapping .mapping (some pairs) _ =>
    (pairValues (distance + 1) pairs).map fun pairs =>
      .mapping (pairs.foldl (fun all (key, value) => insertPair all key value) [])
  | .mapping .mapping none _ => .error (distance + 1, .malformed)
  | .mapping .sequence .. => .error (distance + 1, .malformed)
  | .mapping _ _ none => .error (distance, .malformed)
  | .mapping tag _ (some text) => (scalarValue tag text).mapError (distance, ·)

/-- the values of nodes at a distance from the root -/
def itemValues (distance : Nat) : List Node → Except Fault (List Value)
  | [] => .ok []
  | item :: items =>
    (both (item.valueAt distance) (itemValues distance items)).map fun (value, values) => value :: values

/-- the values of keys and their values at a distance from the root -/
def pairValues (distance : Nat) : List (Node × Node) → Except Fault (List (Value × Value))
  | [] => .ok []
  | (key, value) :: pairs =>
    let key := if key.isCollection then .error (distance, .malformed) else key.valueAt distance
    (both (both key (value.valueAt distance)) (pairValues distance pairs)).map fun (pair, pairs) => pair :: pairs

end

/-- the value of a document; one without a node is nothing -/
def readDocument (text : List Char) : Except Error Value := do
  match ← readNode text with
  | none => return .null
  | some root =>
    if root.isForeign then throw (.defective .unsupported)
    (root.valueAt 0).mapError Prod.snd

/-- The text of a file. A character that the file breaks off in is counted from its own start. -/
def decode (bytes : List UInt8) : Except Text.DecodingError (List Char) :=
  (Text.decode bytes).mapError fun error =>
    if error.fault = .endOfData then { error with position := 0 } else error

def reader : Reader := fun bytes => do
  let text ← (decode bytes).mapError .undecodable
  (readDocument text).mapError .document

end Drumline.Yaml
