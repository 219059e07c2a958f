/-
From a pattern to a track. Every step with a hit or a flam becomes one chord of all the notes that sound on it; silent
steps add to the wait before the next chord. Unless flams are off, every flam also becomes a grace note of its own,
which stands one grace length before its step, or as long after the start where there is no room before it.

`steps` lists what sounds on each step, `eventsFrom` turns that into events with the wait so far, and `arrange` puts
name, tempo and time signature in front.
-/
import Drumline.FileName
import Drumline.Options.Basic
import Drumline.Track.Timeline

namespace Drumline

/-- a note that sounds on a step, and whether it is a flam -/
structure Strike where
  note : Int
  flam : Bool
  deriving DecidableEq, Repr

/-- what a line plays on a step -/
def Hit.strike? (hit : Hit) (step : Nat) : Except StepError (Option Strike) :=
  match hit.steps[step]? with
  | none => .error .beyondLine
  | some c =>
    match Symbol.ofChar c with
    | .hit => .ok (some ⟨hit.note, false⟩)
    | .flam => .ok (some ⟨hit.note, true⟩)
    | .rest => .ok none

/-- the notes of a step, in the order of the lines -/
def Pattern.strikes (p : Pattern) (step : Nat) : Except StepError (List Strike) :=
  (p.hits.mapM fun (hit : Hit) => hit.strike? step).map (·.filterMap id)

/-- the lengths and velocities that an arrangement works with, in ticks and on the scale of the settings -/
structure Feel where
  stepTicks : Int
  flamTicks : Int
  accentVelocity : Number
  normalVelocity : Number
  flamVelocity : Number
  noFlams : Bool

namespace Feel

/-- where the grace note of a step starts -/
def graceTick (feel : Feel) (step : Nat) : Int :=
  let tick := step * feel.stepTicks - feel.flamTicks
  if tick < 0 then feel.flamTicks else tick

def grace (feel : Feel) (step : Nat) (accented : Bool) (strike : Strike) : NoteEvent :=
  { pitches := [.int strike.note]
    duration := .int (feel.flamTicks - 1)
    velocity := if accented then feel.accentVelocity else feel.flamVelocity
    tick := some (.int (feel.graceTick step)) }

def chord (feel : Feel) (accented : Bool) (wait : Int) (strikes : List Strike) : NoteEvent :=
  { pitches := strikes.map fun strike => .int strike.note
    duration := .int feel.stepTicks
    velocity := if accented then feel.accentVelocity else feel.normalVelocity
    wait := .int wait }

/-- the events of a step on which something sounds: its grace notes, then its chord -/
def stepEvents (feel : Feel) (step : Nat) (accented : Bool) (wait : Int) (strikes : List Strike) : List NoteEvent :=
  (if feel.noFlams then [] else (strikes.filter (·.flam)).map (feel.grace step accented)) ++
    [feel.chord accented wait strikes]

end Feel

/-- the events of some steps, after a wait -/
def Pattern.eventsFrom (p : Pattern) (feel : Feel) (wait : Int) : List Nat → Except StepError (List NoteEvent)
  | [] => .ok []
  | step :: steps => do
    let strikes ← p.strikes step
    if strikes = [] then p.eventsFrom feel (wait + feel.stepTicks) steps
    else
      let accented ← p.isAccented step
      let others ← p.eventsFrom feel 0 steps
      return feel.stepEvents step accented wait strikes ++ others

def Pattern.events (p : Pattern) (feel : Feel) : Except StepError (List NoteEvent) :=
  p.eventsFrom feel 0 (List.range p.length.toNat)

/-- a pattern as a track, and the meter it is in -/
structure Arrangement where
  track : Track
  meter : Meter

/-- the track of a pattern, named after a file -/
def Pattern.arrange (p : Pattern) (fileName : String) (settings : Settings) : Except ScoreError Arrangement := do
  let name := String.ofList (FileName.stripExtension fileName.toList)
  let track ← (Track.empty.addName name).setTempo settings.bpm
  let meter ← Meter.ofLength p.length settings.noteDuration
  let track ← track.setTimeSignature (.int meter.numerator) (.int meter.denominator)
  let stepTicks ← tickDuration meter.code
  let flamTicks ← tickDuration settings.flamDuration
  let feel : Feel := ⟨stepTicks, flamTicks, settings.accentVelocity, settings.normalVelocity, settings.flamVelocity,
    settings.noFlams⟩
  let events ← p.events feel
  return ⟨track.addEvents events, meter⟩

def Pattern.toMidi (p : Pattern) (fileName : String) (settings : Settings) : Except ScoreError (List UInt8) := do
  let arrangement ← p.arrange fileName settings
  buildFile [arrangement.track]

end Drumline
