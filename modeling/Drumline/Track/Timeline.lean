/-
From the events of a track to its messages. Every message is placed at a tick: meta messages at the start, and for
each note of an event one message where it starts and one where it ends. `Track.messages` sorts them by tick, at the
same tick meta messages before ends and ends before starts, and otherwise as they were placed; then it counts the
ticks from each message to the next and closes the track.
-/
import Drumline.Track.Basic

namespace Drumline

/-- a message at its tick -/
structure Placed where
  tick : Number
  message : Midi.Message
  deriving DecidableEq

/-- the place of a message among those of the same tick -/
def Midi.Message.rank : Midi.Message → Nat
  | .noteOff .. => 1
  | .noteOn .. => 2
  | _ => 0

/-- the order of placed messages: by tick, then by rank -/
def Placed.le (a b : Placed) : Bool :=
  Number.lt a.tick b.tick || (Number.eqv a.tick b.tick && a.message.rank ≤ b.message.rank)

namespace NoteEvent

/-- where an event starts, if the event before it without a tick of its own ends at the cursor -/
def start (event : NoteEvent) (cursor : Number) : Except ArithmeticError Number :=
  match event.tick with
  | some tick => .ok tick
  | none => cursor.add event.wait

def note (event : NoteEvent) (make : Midi.Channel → Midi.DataByte → Midi.DataByte → Midi.Message) (velocity : Int)
    (pitch : Number) : Except Midi.FieldError Midi.Message := do
  let channel ← Midi.channel event.channel
  let note ← Midi.dataByte pitch
  let velocity ← Midi.dataByte (.int velocity)
  return make channel note velocity

/-- the messages of every note of an event -/
def notes (event : NoteEvent) (make : Midi.Channel → Midi.DataByte → Midi.DataByte → Midi.Message) (velocity : Int) :
    Except Midi.FieldError (List Midi.Message) :=
  event.pitches.mapM (event.note make velocity)

/-- the placed messages of an event, and the cursor behind it -/
def place (cursor : Number) (event : NoteEvent) : Except ScoreError (List Placed × Number) := do
  let start ← event.start cursor
  let stop ← start.add event.duration
  let velocity ← Velocity.toData event.velocity
  let starts ← event.notes .noteOn velocity
  let ends ← event.notes .noteOff velocity
  return (starts.map (⟨start, ·⟩) ++ ends.map (⟨stop, ·⟩), if event.tick.isNone then stop else cursor)

end NoteEvent

/-- the placed messages of events -/
def placeEvents (cursor : Number) : List NoteEvent → Except ScoreError (List Placed)
  | [] => .ok []
  | event :: events => do
    let (placed, cursor) ← event.place cursor
    let others ← placeEvents cursor events
    return placed ++ others

/-- messages with the ticks from each to the next, the first counted from a given tick -/
def withDeltas (last : Number) : List Placed → Except ArithmeticError (List (Midi.Timed Midi.Message))
  | [] => .ok []
  | placed :: rest => do
    let delta ← placed.tick.sub last
    let others ← withDeltas placed.tick rest
    return ⟨delta, placed.message⟩ :: others

namespace Track

/-- every message of a track at its tick, in the order of the track -/
def timeline (t : Track) : Except ScoreError (List Placed) := do
  let notes ← placeEvents 0 t.events
  return t.metas.map (⟨0, ·⟩) ++ notes

def messages (t : Track) : Except ScoreError (List (Midi.Timed Midi.Message)) := do
  let placed ← t.timeline
  let timed ← withDeltas 0 (placed.mergeSort Placed.le)
  return timed ++ [⟨0, .endOfTrack⟩]

end Track

def buildFile (tracks : List Track) : Except ScoreError (List UInt8) := do
  let messages ← tracks.mapM Track.messages
  Midi.encodeFile messages

end Drumline
