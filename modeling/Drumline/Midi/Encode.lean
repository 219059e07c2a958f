/-
Standard MIDI Files as bytes. A file is a header and one chunk for each track: format 0 for exactly one track and
format 1 for any other number, at 128 ticks to the quarter note. A channel message whose status is that of the channel
message before leaves it out; a meta message in between makes the next one write its status again.

The ticks between messages have to be whole and not negative, and the bytes of a track few enough to be counted in four
bytes; `WriteError` says what fails first.
-/
import Drumline.Midi.Message
import Drumline.Midi.VariableLength
import Drumline.Text.Utf8
import Drumline.Time

namespace Drumline.Midi

/-- a number in a fixed count of bytes, most significant first -/
def bigEndian : Nat → Nat → List UInt8
  | 0, _ => []
  | count + 1, n => bigEndian count (n / 256) ++ [UInt8.ofNat n]

/-- a meta message of a type, with its data -/
def metaBytes (type : UInt8) (data : List UInt8) : List UInt8 :=
  0xFF :: type :: VariableLength.write data.length ++ data

/-- a channel message after one with the given status byte, and the status byte in force then -/
def channelBytes (running : Option UInt8) (status : UInt8) (data : List UInt8) : List UInt8 × Option UInt8 :=
  (if running = some status then data else status :: data, some status)

/-- the bytes of a message after one with the given status byte, and the status byte in force then -/
def Message.encode (running : Option UInt8) : Message → List UInt8 × Option UInt8
  | .trackName name => (metaBytes 0x03 (Text.encode name.toList), none)
  | .setTempo tempo => (metaBytes 0x51 (bigEndian 3 tempo), none)
  | .timeSignature numerator denominator clocks thirtySeconds =>
    (metaBytes 0x58 [UInt8.ofNat numerator, UInt8.ofNat denominator.exponent, UInt8.ofNat clocks,
      UInt8.ofNat thirtySeconds], none)
  | .noteOn channel note velocity =>
    channelBytes running (UInt8.ofNat (0x90 + channel)) [UInt8.ofNat note, UInt8.ofNat velocity]
  | .noteOff channel note velocity =>
    channelBytes running (UInt8.ofNat (0x80 + channel)) [UInt8.ofNat note, UInt8.ofNat velocity]
  | .endOfTrack => (metaBytes 0x2F [], none)

inductive WriteError where
  | fractionalTime
  | negativeTime
  | tooManyTracks
  | chunkTooLong
  deriving DecidableEq, Repr

def WriteError.message : WriteError → String
  | .fractionalTime => "message time must be int in MIDI file"
  | .negativeTime => "message time must be non-negative in MIDI file"
  | .tooManyTracks => "'h' format requires -32768 <= number <= 32767"
  | .chunkTooLong => "'L' format requires 0 <= number <= 4294967295"

/-- the ticks before a message, as they are written -/
def writtenTicks : Number → Except WriteError Nat
  | .double _ => .error .fractionalTime
  | .int n => if n < 0 then .error .negativeTime else .ok n.toNat

/-- the bytes of a track's messages after one with the given status byte -/
def encodeMessages (running : Option UInt8) : List (Timed Message) → Except WriteError (List UInt8)
  | [] => .ok []
  | timed :: rest => do
    let ticks ← writtenTicks timed.delta
    let (bytes, running) := timed.message.encode running
    let others ← encodeMessages running rest
    return VariableLength.write ticks ++ bytes ++ others

/-- a chunk of a file: its name, the count of its bytes, and those -/
def chunk (name : String) (data : List UInt8) : List UInt8 :=
  name.toUTF8.toList ++ bigEndian 4 data.length ++ data

def longestChunk : Nat := 0xFFFFFFFF

def trackChunk (track : List (Timed Message)) : Except WriteError (List UInt8) := do
  let data ← encodeMessages none track
  if longestChunk < data.length then throw .chunkTooLong
  return chunk "MTrk" data

def maxTracks : Nat := 0x7FFF

def encodeFile (tracks : List (List (Timed Message))) : Except WriteError (List UInt8) := do
  if maxTracks < tracks.length then throw .tooManyTracks
  let format := if tracks.length = 1 then 0 else 1
  let chunks ← tracks.mapM trackChunk
  return chunk "MThd" (bigEndian 2 format ++ bigEndian 2 tracks.length ++ bigEndian 2 ticksPerBeat) ++ chunks.flatten

end Drumline.Midi
