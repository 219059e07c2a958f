/-
Patterns. A pattern is a loop of steps: for each instrument line a note and the symbols of its steps, and a mask of
accented steps. A symbol is a hit, a flam or, whatever else it is, a rest.

The parser only makes patterns whose lines all have the pattern's length and whose mask is empty or has that length
too, but nothing here assumes so: a step beyond a line is an error of its own, `StepError.beyondLine`.
-/
namespace Drumline

/-- one instrument line: a note and the symbols of its steps -/
structure Hit where
  note : Int
  steps : List Char
  deriving DecidableEq, Repr

structure Pattern where
  hits : List Hit
  accents : List Bool
  length : Int
  deriving DecidableEq, Repr

/-- what a step's symbol asks for -/
inductive Symbol where
  | hit
  | flam
  | rest
  deriving DecidableEq, Repr

/-- the meaning of a character, in either case -/
def Symbol.ofChar (c : Char) : Symbol :=
  if c = 'x' ∨ c = 'X' then .hit
  else if c = 'f' ∨ c = 'F' then .flam
  else .rest

inductive StepError where
  | beyondMask
  | beyondLine
  deriving DecidableEq, Repr

def StepError.message : StepError → String
  | .beyondMask => "list index out of range"
  | .beyondLine => "string index out of range"

/-- the mask that an accent line writes: only hits accent -/
def accentMask (steps : List Char) : List Bool :=
  steps.map fun c => Symbol.ofChar c == .hit

namespace Pattern

/-- Whether a step is accented. Steps past the end of the mask are not; a negative step counts from the end. -/
def isAccented (p : Pattern) (step : Int) : Except StepError Bool :=
  if (p.accents.length : Int) ≤ step then .ok false
  else
    match p.accents[(if step < 0 then step + p.accents.length else step).toNat]? with
    | some accent => if step < -p.accents.length then .error .beyondMask else .ok accent
    | none => .error .beyondMask

end Pattern

end Drumline
