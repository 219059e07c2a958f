/-
Running the command line. The options of a run are the defaults, then those of the configuration file, then those of the
command line, and only the result has to be within bounds. The target is converted as a directory if it is one.

A run ends with status 0, or after a reported error with status 1 and one notice of that error. Help and usage errors
end it before it starts. An error that is no report is passed on, and the run has no status.
-/
import Drumline.CommandLine.Arguments
import Drumline.Conversion
import Drumline.Options.Config

namespace Drumline.CommandLine

/-- how a run fails -/
inductive RunError where
  | config (error : ConfigError)
  | options (error : OptionsError)
  | conversion (error : ConversionError)
  deriving DecidableEq, Repr

namespace RunError

def message : RunError → String
  | config error => error.message
  | options error => error.message
  | conversion error => error.message

/-- whether an error is a report, and not passed on as it is -/
def isReport : RunError → Bool
  | config error => error.isReport
  | options (.unwritable _) => false
  | options _ => true
  | conversion error => error.isReport

end RunError

/-- the options that a command line sets, by their names -/
def Arguments.overrides (a : Arguments) : List (String × Value) :=
  a.options.map fun (option, value) => (option.name, value)

/-- the options of a command line and of a configuration -/
def Arguments.mergeOptions (a : Arguments) (config : List (String × Value)) : Except OptionsError Options := do
  let options ← Options.withOverrides {} config
  options.withOverrides a.overrides

/-- the options that the configuration file of a command line sets, if it names one -/
def Arguments.loadConfig (a : Arguments) (reader : Yaml.Reader) : Action ConfigError (List (String × Value)) :=
  match a.config with
  | none => return []
  | some path => if path = "" then return [] else loadOptions reader path

def Arguments.settings (a : Arguments) (reader : Yaml.Reader) : Action RunError Settings := do
  let config ← (a.loadConfig reader).adapt .config
  let options ← Action.ofExcept .options (a.mergeOptions config)
  Action.ofExcept .options options.check

def Arguments.convert (a : Arguments) (settings : Settings) : Action RunError Unit := do
  let target := Path.read a.target.toList
  let output := a.output.map fun text => Path.read text.toList
  if ← Action.isDirectory (Path.ofText a.target.toList) then
    let _ ← (convertDirectory target output a.debug settings).adapt .conversion
  else
    let _ ← (convertFile target output a.debug settings).adapt .conversion

def Arguments.run (a : Arguments) (reader : Yaml.Reader) : Action RunError Nat :=
  tryCatch
    (do
      a.convert (← a.settings reader)
      return 0)
    fun error => do
      unless error.isReport do throw error
      Action.tell (.failed error.message)
      return 1

/-- the least urgent notices that a run shows -/
def Arguments.level (a : Arguments) : Level :=
  if a.quiet then .warning else .info

/-- the notices that a run shows, a line for each -/
def Arguments.report (a : Arguments) (notices : List Notice) : String :=
  String.join ((notices.filter fun notice => a.level.rank ≤ notice.level.rank).map fun notice =>
    s!"{notice.level.name}: {notice.text}\n")

def Stop.status : Stop → Nat
  | help => 0
  | usage _ => 2

def UsageError.line (error : UsageError) : String :=
  s!"pat2midi: error: {error.message}\n"

end Drumline.CommandLine
