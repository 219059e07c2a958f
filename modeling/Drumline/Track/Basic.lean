/-
Tracks. A track collects meta messages and note events. An event is a chord: its notes start together and last equally
long. It stands either at a tick of its own or, if it has none, some ticks after the event before it that has none.

Nothing about an event is checked when it is added; `Track.messages` finds out whether its values make messages. The
meta messages are checked as they are added: `ScoreError` says what is wrong.
-/
import Drumline.Midi.Encode
import Drumline.Pattern.Basic
import Drumline.Velocity

namespace Drumline

/-- what can go wrong between a pattern and the bytes of its file -/
inductive ScoreError where
  | arithmetic (error : ArithmeticError)
  | field (error : Midi.FieldError)
  | write (error : Midi.WriteError)
  | step (error : StepError)
  deriving DecidableEq, Repr

def ScoreError.message : ScoreError → String
  | .arithmetic error => error.message
  | .field error => error.message
  | .write error => error.message
  | .step error => error.message

instance : MonadLift (Except ArithmeticError) (Except ScoreError) := ⟨Except.mapError .arithmetic⟩
instance : MonadLift (Except Midi.FieldError) (Except ScoreError) := ⟨Except.mapError .field⟩
instance : MonadLift (Except Midi.WriteError) (Except ScoreError) := ⟨Except.mapError .write⟩
instance : MonadLift (Except StepError) (Except ScoreError) := ⟨Except.mapError .step⟩

/-- A chord. The wait counts only for an event without a tick of its own. -/
structure NoteEvent where
  pitches : List Number
  duration : Number
  velocity : Number
  wait : Number := 0
  tick : Option Number := none
  channel : Number := 0
  deriving DecidableEq

/-- meta messages and events, in the order in which they were added -/
structure Track where
  metas : List Midi.Message
  events : List NoteEvent
  deriving DecidableEq

namespace Track

def empty : Track := ⟨[], []⟩

def addMeta (t : Track) (message : Midi.Message) : Track :=
  { t with metas := t.metas ++ [message] }

def addName (t : Track) (name : String) : Track :=
  t.addMeta (.trackName name)

def setTempo (t : Track) (bpm : Number) : Except ScoreError Track := do
  let tempo ← tempoOf bpm
  let length ← Midi.attributeUpTo 0xFFFFFF (.int tempo)
  return t.addMeta (.setTempo length)

/-- The metronome clicks every quarter note, and a quarter note has eight thirty-seconds. -/
def setTimeSignature (t : Track) (numerator denominator : Number) : Except ScoreError Track := do
  let numerator ← Midi.attributeUpTo 255 numerator
  let denominator ← Midi.denominator denominator
  return t.addMeta (.timeSignature numerator denominator 24 8)

def addEvents (t : Track) (events : List NoteEvent) : Track :=
  { t with events := t.events ++ events }

def addEvent (t : Track) (event : NoteEvent) : Track :=
  t.addEvents [event]

end Track

end Drumline
