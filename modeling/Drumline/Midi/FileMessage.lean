/-
The messages that a Standard MIDI File may hold: those of a drum track, and all the others that the format names. A meta
message of a type that the format does not name is kept with its bytes.
-/
import Drumline.Midi.Message

namespace Drumline.Midi

inductive FrameRate where
  | film | pal | dropFrame | thirty
  deriving DecidableEq, Repr

/-- system messages without data -/
inductive Signal where
  | tuneRequest | clock | start | resume | stop | activeSensing
  deriving DecidableEq, Repr

def Signal.name : Signal → String
  | tuneRequest => "tune_request"
  | clock => "clock"
  | start => "start"
  | resume => "continue"
  | stop => "stop"
  | activeSensing => "active_sensing"

/-- meta messages that hold a text, other than the name of a track -/
inductive TextKind where
  | text | copyright | instrumentName | lyrics | marker | cueMarker | deviceName
  deriving DecidableEq, Repr

/-- a key signature: its place from seven flats to seven sharps, and whether it is minor -/
structure Key where
  place : Fin 15
  minor : Bool
  deriving DecidableEq, Repr

/-- the names of the keys from seven flats to seven sharps -/
def Key.names (minor : Bool) : Vector String 15 :=
  if minor then
    #v["Abm", "Ebm", "Bbm", "Fm", "Cm", "Gm", "Dm", "Am", "Em", "Bm", "F#m", "C#m", "G#m", "D#m", "A#m"]
  else
    #v["Cb", "Gb", "Db", "Ab", "Eb", "Bb", "F", "C", "G", "D", "A", "E", "B", "F#", "C#"]

def Key.name (key : Key) : String :=
  (Key.names key.minor)[key.place]

inductive FileMessage where
  | drum (message : Message)
  | polytouch (channel : Channel) (note value : DataByte)
  | controlChange (channel : Channel) (control value : DataByte)
  | programChange (channel : Channel) (program : DataByte)
  | aftertouch (channel : Channel) (value : DataByte)
  | pitchwheel (channel : Channel) (low high : DataByte)
  | sysex (data : List DataByte)
  | quarterFrame (data : DataByte)
  | songPosition (low high : DataByte)
  | songSelect (song : DataByte)
  | signal (kind : Signal)
  | sequenceNumber (number : Nat)
  | text (kind : TextKind) (content : String)
  | channelPrefix (channel : UInt8)
  | midiPort (port : UInt8)
  | smpteOffset (rate : FrameRate) (hours : Nat) (minutes seconds : Fin 60) (frames : UInt8) (subFrames : Fin 100)
  | keySignature (key : Key)
  | sequencerSpecific (data : List UInt8)
  | unknown (type : UInt8) (data : List UInt8)
  deriving DecidableEq

end Drumline.Midi
