/-
Reading Standard MIDI Files. A file is a header chunk and as many track chunks as it says; what follows them is
ignored. The messages of a track are read until exactly the bytes that its chunk announces are used, which is looked
at before each message only: a track with a wrong size is read on into whatever follows.

A byte below 128 in the place of a status repeats the status of the message before, and every status but that of meta
messages is kept for that. `Reader` is the state of reading: the bytes left and the position among all bytes.
-/
import Drumline.Midi.FileMessage
import Drumline.Midi.VariableLength
import Drumline.Text.Utf8

namespace Drumline.Midi

/-- why bytes are not read -/
inductive ReadError where
  | endOfData
  | noHeader
  | noTrackHeader
  | noRunningStatus
  | undefinedStatus (status : UInt8)
  | dataByteRange
  | tooLong (length : Nat)
  | excessData (signal : Signal)
  | missingData
  | unknownFrameRate (code : Nat)
  | unknownKey (sharps : Int) (mode : UInt8)
  | field (error : FieldError)
  | text (error : Text.DecodingError)
  deriving DecidableEq, Repr

/-- the longest data of one message -/
def longestData : Nat := 1000000

def ReadError.message : ReadError → String
  | .endOfData => ""
  | .noHeader => "MThd not found. Probably not a MIDI file"
  | .noTrackHeader => "no MTrk header at start of track"
  | .noRunningStatus => "running status without last_status"
  | .undefinedStatus status => s!"undefined status byte 0x{String.ofList (Nat.toDigits 16 status.toNat)}"
  | .dataByteRange => "data byte must be in range 0..127"
  | .tooLong length => s!"Message length {length} exceeds maximum length {longestData}"
  | .excessData signal => s!"wrong number of bytes for {signal.name} message"
  | .missingData => "list index out of range"
  | .unknownFrameRate code => toString code
  | .unknownKey sharps mode =>
    let kind := if sharps < 7 then "flats" else "sharps"
    s!"Could not decode key with {sharps.natAbs} {kind} and mode {mode}"
  | .field error => error.message
  | .text error => error.message

structure Cursor where
  rest : List UInt8
  position : Nat

/-- an action on the bytes that are left -/
abbrev Reader := StateT Cursor (Except ReadError)

namespace Reader

def byte : Reader UInt8 := fun c =>
  match c.rest with
  | [] => .error .endOfData
  | b :: rest => .ok (b, ⟨rest, c.position + 1⟩)

/-- a number in groups of seven bits -/
def quantity : Reader Nat := fun c =>
  match VariableLength.read c.rest with
  | none => .error .endOfData
  | some (n, rest) => .ok (n, ⟨rest, c.position + (c.rest.takeWhile (128 ≤ ·)).length + 1⟩)

/-- as many bytes as wanted, or all that are left -/
def upTo (count : Nat) : Reader (List UInt8) := fun c =>
  let taken := c.rest.take count
  .ok (taken, ⟨c.rest.drop count, c.position + taken.length⟩)

def data (length : Nat) : Reader (List UInt8) := do
  if longestData < length then throw (.tooLong length)
  let taken ← upTo length
  if taken.length < length then throw .endOfData
  return taken

/-- the name of a chunk and the count of its bytes -/
def chunkHeader : Reader (List UInt8 × Nat) := do
  let taken ← upTo 8
  if taken.length < 8 then throw .endOfData
  return (taken.take 4, (taken.drop 4).foldl (fun n b => n * 256 + b.toNat) 0)

end Reader

def toDataByte? (b : UInt8) : Option DataByte :=
  if h : b.toNat < 128 then some ⟨b.toNat, h⟩ else none

/-- the data of a system exclusive message, without a mark of its start or its end -/
def stripExclusive (data : List UInt8) : List UInt8 :=
  let data := if data.head? = some 0xF0 then data.tail else data
  if data.getLast? = some 0xF7 then data.dropLast else data

def metaByte (data : List UInt8) (i : Nat) : Except ReadError UInt8 :=
  data[i]?.elim (.error .missingData) .ok

/-- a byte with a bound of its own -/
def boundedByte (n : Nat) (b : UInt8) : Except ReadError (Fin (n + 1)) :=
  (toFin? n b.toNat).elim (.error (.field (.attributeRange 0 n))) .ok

def metaText (data : List UInt8) : Except ReadError String :=
  match Text.decode data with
  | .ok text => .ok (String.ofList text)
  | .error e => .error (.text e)

/-- the key that two bytes stand for: a signed count of sharps, and the mode -/
def readKey (sharps mode : UInt8) : Except ReadError Key :=
  let n : Int := Int.bmod sharps.toNat 256
  match toFin? 14 (n + 7), mode with
  | some place, 0 => .ok ⟨place, false⟩
  | some place, 1 => .ok ⟨place, true⟩
  | _, _ => .error (.unknownKey n mode)

/-- the meta message of a type, with its data -/
def readMeta (type : UInt8) (data : List UInt8) : Except ReadError FileMessage := do
  let text := fun kind => do return .text kind (← metaText data)
  match type with
  | 0x00 =>
    if data = [] then return .sequenceNumber 0
    return .sequenceNumber ((← metaByte data 0).toNat * 256 + (← metaByte data 1).toNat)
  | 0x01 => text .text
  | 0x02 => text .copyright
  | 0x03 => return .drum (.trackName (← metaText data))
  | 0x04 => text .instrumentName
  | 0x05 => text .lyrics
  | 0x06 => text .marker
  | 0x07 => text .cueMarker
  | 0x09 => text .deviceName
  | 0x20 => return .channelPrefix (← metaByte data 0)
  | 0x21 => return .midiPort (← if data = [] then pure 0 else metaByte data 0)
  | 0x2F => return .drum .endOfTrack
  | 0x51 =>
    let high ← metaByte data 0
    let middle ← metaByte data 1
    let low ← metaByte data 2
    return .drum (.setTempo (Fin.ofNat _ (high.toNat * 65536 + middle.toNat * 256 + low.toNat)))
  | 0x54 =>
    let first ← metaByte data 0
    let rate ← match first.toNat / 32 with
      | 0 => pure FrameRate.film
      | 1 => pure FrameRate.pal
      | 2 => pure FrameRate.dropFrame
      | 3 => pure FrameRate.thirty
      | code => throw (.unknownFrameRate code)
    let minutes ← boundedByte 59 (← metaByte data 1)
    let seconds ← boundedByte 59 (← metaByte data 2)
    let frames ← metaByte data 3
    let subFrames ← boundedByte 99 (← metaByte data 4)
    return .smpteOffset rate (first.toNat % 32) minutes seconds frames subFrames
  | 0x58 =>
    let numerator ← metaByte data 0
    let exponent ← metaByte data 1
    let denominator ← match denominator (.int (1 <<< exponent.toNat : Nat)) with
      | .ok d => pure d
      | .error e => throw (.field e)
    let clocks ← metaByte data 2
    let thirtySeconds ← metaByte data 3
    return .drum (.timeSignature numerator.toFin denominator clocks.toFin thirtySeconds.toFin)
  | 0x59 => return .keySignature (← readKey (← metaByte data 0) (← metaByte data 1))
  | 0x7F => return .sequencerSpecific data
  | _ => return .unknown type data

/-- how many data bytes follow a status, and the message that they make; none if there is no such status -/
def dataCount? (status : UInt8) : Option Nat :=
  match status.toNat / 16 with
  | 0x8 | 0x9 | 0xA | 0xB | 0xE => some 2
  | 0xC | 0xD => some 1
  | 0xF =>
    match status with
    | 0xF1 | 0xF3 => some 1
    | 0xF2 => some 2
    | 0xF6 | 0xF8 | 0xFA | 0xFB | 0xFC | 0xFE => some 0
    | _ => none
  | _ => none

/-- the system message without data that a status stands for -/
def signal? (status : UInt8) : Option Signal :=
  match status with
  | 0xF6 => some .tuneRequest
  | 0xF8 => some .clock
  | 0xFA => some .start
  | 0xFB => some .resume
  | 0xFC => some .stop
  | 0xFE => some .activeSensing
  | _ => none

/-- the message of a status and its data bytes; only system messages without data can be given too many -/
def shortMessage (status : UInt8) (data : List DataByte) : Except ReadError FileMessage :=
  let channel : Channel := Fin.ofNat 16 status.toNat
  match status.toNat / 16, data with
  | 0x8, [note, velocity] => .ok (.drum (.noteOff channel note velocity))
  | 0x9, [note, velocity] => .ok (.drum (.noteOn channel note velocity))
  | 0xA, [note, value] => .ok (.polytouch channel note value)
  | 0xB, [control, value] => .ok (.controlChange channel control value)
  | 0xC, [program] => .ok (.programChange channel program)
  | 0xD, [value] => .ok (.aftertouch channel value)
  | 0xE, [low, high] => .ok (.pitchwheel channel low high)
  | 0xF, data =>
    match status, data with
    | 0xF1, [b] => .ok (.quarterFrame b)
    | 0xF2, [low, high] => .ok (.songPosition low high)
    | 0xF3, [song] => .ok (.songSelect song)
    | status, data =>
      match signal? status with
      | some signal => if data = [] then .ok (.signal signal) else .error (.excessData signal)
      | none => .error (.undefinedStatus status)
  | _, _ => .error (.undefinedStatus status)

namespace Reader

/-- a meta message, from its type on; one of an unknown type loses the ticks before it -/
def timedMeta (delta : Nat) : Reader (Timed FileMessage) := do
  let type ← byte
  let length ← quantity
  let data ← data length
  match ← readMeta type data with
  | .unknown type data => return ⟨0, .unknown type data⟩
  | message => return ⟨.int delta, message⟩

/-- a system exclusive message, from its length on -/
def exclusive : Reader FileMessage := do
  let length ← quantity
  let data ← data length
  match (stripExclusive data).mapM toDataByte? with
  | some data => return .sysex data
  | none => throw (.field .dataByteRange)

/-- any other message, of which one data byte may be read already -/
def short (status : UInt8) (first : List UInt8) : Reader FileMessage := do
  match dataCount? status with
  | none => throw (.undefinedStatus status)
  | some count =>
    let others ← data (count - first.length)
    match (first ++ others).mapM toDataByte? with
    | some data => shortMessage status data
    | none => throw .dataByteRange

/-- a message with the ticks before it, after one with the given status, and the status in force then -/
def timed (running : Option UInt8) : Reader (Timed FileMessage × Option UInt8) := do
  let delta ← quantity
  let b ← byte
  let (status, first) ← if b < 0x80 then
      match running with
      | none => throw .noRunningStatus
      | some status => pure (status, [b])
    else pure (b, [])
  let running := if status = 0xFF then running else some status
  if status = 0xFF then return (← timedMeta delta, running)
  let message ← if status = 0xF0 ∨ status = 0xF7 then exclusive else short status first
  return (⟨.int delta, message⟩, running)

/-- the messages up to a position; each takes a byte at least, so the count of bytes bounds that of messages -/
def messages (stop : Nat) : (bytes : Nat) → Option UInt8 → Reader (List (Timed FileMessage))
  | 0, _ => do
    if (← get).position = stop then return []
    throw .endOfData
  | bytes + 1, running => do
    if (← get).position = stop then return []
    let (message, running) ← timed running
    return message :: (← messages stop bytes running)

def track : Reader (List (Timed FileMessage)) := do
  let (name, size) ← chunkHeader
  if name ≠ "MTrk".toUTF8.toList then throw .noTrackHeader
  let start ← get
  messages (start.position + size) start.rest.length none

def tracks : Nat → Reader (List (List (Timed FileMessage)))
  | 0 => return []
  | count + 1 => do
    let first ← track
    return first :: (← tracks count)

end Reader

/-- a file as it is read: the three numbers of its header, and its tracks -/
structure File where
  format : Int
  ticksPerBeat : Int
  tracks : List (List (Timed FileMessage))
  deriving DecidableEq

/-- a signed number in two bytes of a header -/
def signedPair (data : List UInt8) (i : Nat) : Int :=
  Int.bmod ((data.getD i 0).toNat * 256 + (data.getD (i + 1) 0).toNat) 65536

def File.read : Reader File := do
  let (name, size) ← Reader.chunkHeader
  if name ≠ "MThd".toUTF8.toList then throw .noHeader
  let header ← Reader.upTo size
  if header.length < 6 then throw .endOfData
  let tracks ← Reader.tracks (signedPair header 2).toNat
  return ⟨signedPair header 0, signedPair header 4, tracks⟩

def decodeFile (bytes : List UInt8) : Except ReadError File :=
  (File.read ⟨bytes, 0⟩).map (·.1)

end Drumline.Midi
