/-
The switches of the command line: their names, and which of them take a value. A switch has long names that start with
two dashes and at most one short name of a dash and a letter. The switch of the grace notes has one name for each of its
two values.
-/
import Drumline.Options.Basic

namespace Drumline.CommandLine

inductive Switch where
  | help
  | output
  | debug
  | config
  | quiet
  | option (name : OptionName)
  deriving DecidableEq, Repr

namespace Switch

/-- every switch, in the order in which they are declared -/
def all : List Switch :=
  [help, output, debug, config, quiet, option .bpm, option .noteDuration, option .accentVelocity,
   option .normalVelocity, option .flamDuration, option .flamVelocity, option .noFlams]

def names : Switch → List String
  | help => ["-h", "--help"]
  | output => ["-o", "--output"]
  | debug => ["--debug"]
  | config => ["--config"]
  | quiet => ["-q", "--quiet"]
  | option .bpm => ["--bpm"]
  | option .noteDuration => ["--note-duration"]
  | option .accentVelocity => ["--accent-velocity"]
  | option .normalVelocity => ["--normal-velocity"]
  | option .flamDuration => ["--flam-duration"]
  | option .flamVelocity => ["--flam-velocity"]
  | option .noFlams => ["--flams", "--no-flams"]

def takesValue : Switch → Bool
  | output | config => true
  | option name => name ≠ .noFlams
  | help | debug | quiet => false

def label (switch : Switch) : String :=
  String.intercalate "/" switch.names

/-- every name with its switch -/
def table : List (String × Switch) :=
  all.flatMap fun switch => switch.names.map (·, switch)

def ofName? (name : String) : Option Switch :=
  table.lookup name

end Switch

end Drumline.CommandLine
