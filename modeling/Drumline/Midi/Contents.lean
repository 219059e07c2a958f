/-
What a MIDI file contains, as a listing: the numbers of its header, and for each track its messages, each with the ticks
before it, its type and the fields of that type.
-/
import Drumline.Listing
import Drumline.Midi.Decode

namespace Drumline

def Number.listing : Number → Listing
  | .int value => .int value
  | .double value => .double value

namespace Midi

def byteListing (data : List UInt8) : Listing :=
  .list (data.map fun b => .int b.toNat)

/-- the type of a message of a drum track, and its fields -/
def Message.fields : Message → String × List (String × Listing)
  | .trackName name => ("track_name", [("name", .text name)])
  | .setTempo tempo => ("set_tempo", [("tempo", .int tempo)])
  | .timeSignature numerator denominator clocks thirtySeconds =>
    ("time_signature", [("numerator", .int numerator), ("denominator", .int denominator.value),
      ("clocks_per_click", .int clocks), ("notated_32nd_notes_per_beat", .int thirtySeconds)])
  | .noteOn channel note velocity =>
    ("note_on", [("note", .int note), ("velocity", .int velocity), ("channel", .int channel)])
  | .noteOff channel note velocity =>
    ("note_off", [("note", .int note), ("velocity", .int velocity), ("channel", .int channel)])
  | .endOfTrack => ("end_of_track", [])

/-- the type of a text message, and the name of its field -/
def TextKind.fieldName : TextKind → String × String
  | .text => ("text", "text")
  | .copyright => ("copyright", "text")
  | .instrumentName => ("instrument_name", "name")
  | .lyrics => ("lyrics", "text")
  | .marker => ("marker", "text")
  | .cueMarker => ("cue_marker", "text")
  | .deviceName => ("device_name", "name")

def FrameRate.listing : FrameRate → Listing
  | .film => .int 24
  | .pal => .int 25
  | .dropFrame => .double (.ofRat (2997 / 100))
  | .thirty => .int 30

/-- the type of a message, and its fields -/
def FileMessage.fields : FileMessage → String × List (String × Listing)
  | .drum message => message.fields
  | .polytouch channel note value =>
    ("polytouch", [("note", .int note), ("value", .int value), ("channel", .int channel)])
  | .controlChange channel control value =>
    ("control_change", [("control", .int control), ("value", .int value), ("channel", .int channel)])
  | .programChange channel program => ("program_change", [("program", .int program), ("channel", .int channel)])
  | .aftertouch channel value => ("aftertouch", [("value", .int value), ("channel", .int channel)])
  | .pitchwheel channel low high =>
    ("pitchwheel", [("pitch", .int (low + 128 * high - 8192 : Int)), ("channel", .int channel)])
  | .sysex data => ("sysex", [("data", .list (data.map fun (b : DataByte) => .int b.val))])
  | .quarterFrame data =>
    ("quarter_frame", [("frame_type", .int (data / 16 : Nat)), ("frame_value", .int (data % 16 : Nat))])
  | .songPosition low high => ("songpos", [("pos", .int (low + 128 * high : Nat))])
  | .songSelect song => ("song_select", [("song", .int song)])
  | .signal kind => (kind.name, [])
  | .sequenceNumber number => ("sequence_number", [("number", .int number)])
  | .text kind content => (kind.fieldName.1, [(kind.fieldName.2, .text content)])
  | .channelPrefix channel => ("channel_prefix", [("channel", .int channel.toNat)])
  | .midiPort port => ("midi_port", [("port", .int port.toNat)])
  | .smpteOffset rate hours minutes seconds frames subFrames =>
    ("smpte_offset", [("frame_rate", rate.listing), ("hours", .int hours), ("minutes", .int minutes),
      ("seconds", .int seconds), ("frames", .int frames.toNat), ("sub_frames", .int subFrames)])
  | .keySignature key => ("key_signature", [("key", .text key.name)])
  | .sequencerSpecific data => ("sequencer_specific", [("data", byteListing data)])
  | .unknown type data => ("unknown_meta", [("type_byte", .int type.toNat), ("data", byteListing data)])

def Timed.listing {α : Type} (fields : α → String × List (String × Listing)) (timed : Timed α) : Listing :=
  let (type, fields) := fields timed.message
  .record (("deltaTime", timed.delta.listing) :: ("type", .text type) :: fields)

def File.listing (file : File) : Listing :=
  .record [
    ("header", .record [("format", .int file.format), ("numTracks", .int file.tracks.length),
      ("ticksPerBeat", .int file.ticksPerBeat)]),
    ("tracks", .list (file.tracks.map fun track => .list (track.map (Timed.listing FileMessage.fields))))]

end Midi

end Drumline
