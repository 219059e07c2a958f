/-
What the library has to tell besides its results: each notice has a level and a text.
-/
import Drumline.Arrangement
import Drumline.Pattern.Parse

namespace Drumline

inductive Level where
  | debug | info | warning | error
  deriving DecidableEq, Repr

namespace Level

def name : Level → String
  | debug => "DEBUG"
  | info => "INFO"
  | warning => "WARNING"
  | error => "ERROR"

def rank : Level → Nat
  | debug => 0
  | info => 1
  | warning => 2
  | error => 3

end Level

inductive Notice where
  | lineSkipped (source : String) (line : SkippedLine)
  | arranged (source : String) (steps : Int) (events : Nat) (meter : Meter)
  | fileBuilt (tracks bytes : Nat)
  | converted (source target : String)
  | noPatterns (directory : String)
  | emptyConfig (path : String)
  | failed (reason : String)
  deriving DecidableEq, Repr

namespace Notice

def level : Notice → Level
  | lineSkipped .. => .warning
  | arranged .. => .debug
  | fileBuilt .. => .debug
  | converted .. => .info
  | noPatterns .. => .warning
  | emptyConfig .. => .info
  | failed .. => .error

def text : Notice → String
  | lineSkipped source line => s!"{source}:{line.line}: {(KeyError.unknown line.key).message} - line skipped"
  | arranged source steps events meter =>
    s!"{source}: {steps} steps, {events} events, {meter.numerator}/{meter.denominator}"
  | fileBuilt tracks bytes => s!"Built MIDI file: {tracks} track(s), {bytes} bytes"
  | converted source target => s!"Converted {source} to {target}"
  | noPatterns directory => s!"No .pat files found in {directory}"
  | emptyConfig path => s!"Config file {path} is empty - using defaults"
  | failed reason => s!"Error: {reason}"

def ofSkipped (source : String) (lines : List SkippedLine) : List Notice :=
  lines.map (lineSkipped source)

def ofArrangement (source : String) (pattern : Pattern) (arrangement : Arrangement) : Notice :=
  arranged source pattern.length arrangement.track.events.length arrangement.meter

end Notice

end Drumline
