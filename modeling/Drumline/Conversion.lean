/-
Conversion of files. `convertFile` turns one pattern file into a MIDI file beside it or at a given path, or prints what
that file would contain. `convertDirectory` does so for every pattern file directly inside a directory, in the order of
their names, and stops at the first that fails.

A conversion reports most of its faults together with the path they belong to. It does not report what only settings out
of bounds bring about, such as a division by zero: those faults are passed on as they are. So is that of an entry of a
directory whose path is too long to look at, pattern file or not.
-/
import Drumline.Midi.Contents
import Drumline.Session

namespace Drumline

/-- what can go wrong between a pattern file and its MIDI file -/
inductive Fault where
  | file (error : FileError)
  | decoding (error : Text.DecodingError)
  | numeral (error : NumeralError)
  | score (error : ScoreError)
  | contents (error : Midi.ReadError)
  deriving DecidableEq, Repr

def Fault.message : Fault → String
  | file error => error.message
  | decoding error => error.message
  | numeral error => error.message
  | score error => error.message
  | contents error => error.message

/-- whether a value of a field is of the wrong size, and not of the wrong kind -/
def Midi.FieldError.isReported : Midi.FieldError → Bool
  | dataByteKind | channelKind | attributeKind => false
  | _ => true

/-- whether a conversion reports that no file can be made -/
def ScoreError.isReported : ScoreError → Bool
  | arithmetic .integerOfNan => true
  | arithmetic _ => false
  | field error => error.isReported
  | write .tooManyTracks | write .chunkTooLong => false
  | write _ => true
  | step _ => false

/-- whether a conversion reports that a file cannot be read back -/
def Midi.ReadError.isReported : Midi.ReadError → Bool
  | endOfData | missingData | unknownFrameRate _ | unknownKey .. => false
  | field error => error.isReported
  | _ => true

/-- whether a conversion reports a fault -/
def Fault.isReported : Fault → Bool
  | score error => error.isReported
  | contents error => error.isReported
  | _ => true

inductive ConversionError where
  | file (path : Path) (cause : Fault)
  | directory (path : Path) (cause : FileError)
  /-- an input without a name, which names no output -/
  | nameless (error : NamelessPath)
  /-- a fault that is passed on as it is -/
  | unreported (cause : Fault)
  deriving DecidableEq, Repr

def ConversionError.message : ConversionError → String
  | file path cause => s!"Failed to process file {path.text}: {cause.message}"
  | directory path cause => s!"Failed to process directory {path.text}: {cause.message}"
  | nameless error => error.message
  | unreported cause => cause.message

/-- whether an error is a report, and not passed on as it is -/
def ConversionError.isReport : ConversionError → Bool
  | file .. | directory .. => true
  | _ => false

def ConversionError.ofFault (path : Path) (fault : Fault) : ConversionError :=
  if fault.isReported then .file path fault else .unreported fault

/-- the error of a directory that cannot be made or listed -/
def ConversionError.ofDirectory (path : Path) : FileError → ConversionError
  | .embeddedNul => .unreported (.file .embeddedNul)
  | error => .directory path error

/-- reads a pattern, with a notice for every line skipped -/
def loadPattern (path : Path) (name : String) : Action Fault Pattern := do
  let bytes ← (Action.readFile path).adapt .file
  let content ← Action.ofExcept .decoding (Text.decode bytes)
  let reading := Pattern.parse content
  (Notice.ofSkipped name reading.skipped).forM Action.tell
  Action.ofExcept .numeral reading.result

/-- the bytes of a pattern's file, with notices of the arrangement and the file -/
def renderPattern (pattern : Pattern) (name : String) (settings : Settings) : Action Fault (List UInt8) := do
  let arrangement ← Action.ofExcept .score (pattern.arrange name settings)
  Action.tell (Notice.ofArrangement name pattern arrangement)
  let bytes ← Action.ofExcept .score (buildFile [arrangement.track])
  Action.tell (.fileBuilt 1 bytes.length)
  return bytes

def printContents (bytes : List UInt8) : Action Fault Unit := do
  let file ← Action.ofExcept .contents (Midi.decodeFile bytes)
  Action.print (file.listing.write ++ "\n")

/-- Converts a pattern file, and gives the bytes of the MIDI file. Where these only are to be shown, nothing is
written. -/
def convertFile (input : Path) (output : Option Path) (debug : Bool) (settings : Settings) :
    Action ConversionError (List UInt8) := do
  let target ← match output with
    | some path => pure path
    | none => Action.ofExcept .nameless (input.outputPath none)
  let name := String.ofList (input.name?.getD [])
  let bytes ← ExceptT.adapt (.ofFault input) do
    let pattern ← loadPattern input name
    let bytes ← renderPattern pattern name settings
    if debug then printContents bytes else (Action.writeFile target bytes).adapt .file
    return bytes
  unless debug do Action.tell (.converted name (← Action.locationText target))
  return bytes

/-- converts those of some paths that are pattern files, and gives them -/
def convertPatterns (directory : Path) (debug : Bool) (settings : Settings) :
    List Path → Action ConversionError (List Path)
  | [] => return []
  | input :: inputs => do
    let found ← (Action.isFile input).adapt fun error => .unreported (.file error)
    if found && (input.name?.getD []).isPattern then
      let target ← Action.ofExcept .nameless (input.outputPath (some directory))
      let _ ← convertFile input (some target) debug settings
      return input :: (← convertPatterns directory debug settings inputs)
    else convertPatterns directory debug settings inputs

/-- Converts every pattern file directly inside a directory, and gives their paths. The directory of the MIDI files is
made first, even where nothing is written into it. -/
def convertDirectory (input : Path) (output : Option Path) (debug : Bool) (settings : Settings) :
    Action ConversionError (List Path) := do
  let target := output.getD (input.child FileName.outputDirectory)
  let names ← ExceptT.adapt (.ofDirectory input) do
    Action.makeDirectories target
    Action.listDirectory input
  let converted ← convertPatterns target debug settings (names.map input.child)
  if converted.isEmpty then Action.tell (.noPatterns input.text)
  return converted

end Drumline
