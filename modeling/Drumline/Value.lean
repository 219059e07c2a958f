/-
Values of settings before anything is known about them: what a configuration file may hold. `Value.show?` shows a value
in messages: texts in quotes, lists and mappings in brackets, the words True, False and None; a whole number with too
many digits makes a value that cannot be shown.

A configuration may hold other values than these: dates, bytes, sets, tuples, collections that contain themselves. No
setting accepts them, so of a `Foreign` value there is only how it is shown, by itself and among others, and whether it
counts as true.
-/
import Drumline.Number.Basic
import Drumline.Number.Decimal

namespace Drumline

def Number.text : Number → String
  | .int value => toString value
  | .double value => value.text

structure Foreign where
  shown : Except UnwritableInteger String
  plain : Except UnwritableInteger String
  isTrue : Bool
  deriving Repr

inductive Value where
  | null
  | bool (value : Bool)
  | int (value : Int)
  | double (value : Double)
  | text (value : String)
  | list (items : List Value)
  | mapping (pairs : List (Value × Value))
  | other (value : Foreign)
  deriving Repr, Inhabited

namespace Value

mutual

def show? : Value → Except UnwritableInteger String
  | null => .ok "None"
  | bool value => .ok (if value then "True" else "False")
  | int value => writeInteger value
  | double value => .ok value.text
  | text value => .ok (Text.quote value)
  | list items => (showItems items).map fun items => "[" ++ String.intercalate ", " items ++ "]"
  | mapping pairs => (showPairs pairs).map fun pairs => "\x7b" ++ String.intercalate ", " pairs ++ "\x7d"
  | other value => value.shown

def showItems : List Value → Except UnwritableInteger (List String)
  | [] => .ok []
  | item :: items => return (← item.show?) :: (← showItems items)

def showPairs : List (Value × Value) → Except UnwritableInteger (List String)
  | [] => .ok []
  | (key, value) :: pairs => do
    let key ← key.show?
    let value ← value.show?
    return (key ++ ": " ++ value) :: (← showPairs pairs)

end

/-- a value as text of its own: as messages show it, but a text without quotes -/
def plain? : Value → Except UnwritableInteger String
  | text value => .ok value
  | other value => value.plain
  | value => value.show?

/-- the number that a value is; a truth value is none -/
def number? : Value → Option Number
  | int value => some (.int value)
  | double value => some (.double value)
  | _ => none

/-- the number that a value counts as: a truth value is one or zero -/
def asNumber? : Value → Option Number
  | bool value => some (.int value.toNat)
  | value => value.number?

/-- whether a value counts as true: nothing, zero and what is empty do not -/
def isTrue : Value → Bool
  | null => false
  | bool value => value
  | int value => value ≠ 0
  | double value => value.toRat? ≠ some 0
  | text value => value ≠ ""
  | list items => !items.isEmpty
  | mapping pairs => !pairs.isEmpty
  | other value => value.isTrue

/-- whether two values are the same key of a mapping: numbers and truth values by the number they count as -/
def sameKey (a b : Value) : Bool :=
  match a.asNumber?, b.asNumber? with
  | some x, some y => x == y || Number.eqv x y
  | none, none =>
    match a, b with
    | null, null => true
    | text s, text t => s == t
    | _, _ => false
  | _, _ => false

end Value

end Drumline
