/-
The help of the command line: how it is called, and what each switch is for.
-/
import Drumline.CommandLine.Switch

namespace Drumline.CommandLine

def Switch.purpose : Switch → String
  | help => "show this help and exit"
  | output => "output file, or output directory when converting a directory (default: <directory>/midi)"
  | debug => "print the MIDI data as JSON instead of writing files"
  | config => "YAML file of option values"
  | quiet => "only log warnings and errors"
  | option .bpm => s!"tempo, {Tempo.slowest}-{Tempo.fastest} (default: {Tempo.standard})"
  | option .noteDuration => s!"step length as a subdivision code (default: {NoteLength.sixteenth})"
  | option .accentVelocity => s!"velocity of accented steps, {Velocity.least}-{Velocity.greatest}"
  | option .normalVelocity => s!"velocity of other steps, {Velocity.least}-{Velocity.greatest}"
  | option .flamDuration =>
    s!"flam grace note length, shorter than the note duration (default: {NoteLength.sixtyFourth})"
  | option .flamVelocity => s!"velocity of flam grace notes on unaccented steps, {Velocity.least}-{Velocity.greatest}"
  | option .noFlams => "render flams as grace notes (default), or play them as ordinary hits"

def usage : String :=
  "usage: pat2midi [options] target\n"

/-- the lines of a switch -/
def Switch.entry (switch : Switch) : String :=
  let names := switch.names.map fun name => if switch.takesValue then name ++ " VALUE" else name
  "  " ++ String.intercalate ", " names ++ s!"\n        {switch.purpose}\n"

def helpText : String :=
  usage ++ "\nConvert .pat drum pattern files to MIDI files.\n\n" ++
    "  target\n        a .pat file, or a directory of .pat files\n" ++ String.join (Switch.all.map Switch.entry)

end Drumline.CommandLine
