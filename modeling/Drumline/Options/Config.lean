/-
Options from a configuration file. The file is a YAML document that is a mapping of option names to values, or empty;
what the document says is up to a reader.

A file that is missing, that cannot be opened, that the reader rejects, or that holds something else is reported with
its path. Bytes that are not UTF-8 and documents with a defect are not: those errors are passed on as they are.
-/
import Drumline.Session
import Drumline.Yaml.Reader

namespace Drumline

inductive ConfigError where
  | notFound (path : String)
  | unreadable (path : String) (cause : FileError)
  | malformed (path : String)
  | noMapping (path : String)
  | unknown (path : String) (names : List String)
  | decoding (error : Text.DecodingError)
  | value (error : Yaml.Defect)
  /-- an unknown key that cannot be shown -/
  | unwritable (error : UnwritableInteger)
  deriving DecidableEq, Repr

namespace ConfigError

def message : ConfigError → String
  | notFound path => s!"Config file {path} not found"
  | unreadable path cause => s!"Failed to read config file {path}: {cause.message}"
  | malformed path => s!"Failed to read config file {path}: {Yaml.Error.malformed.message}"
  | noMapping path => s!"Config file {path} must contain a mapping of option names to values"
  | unknown path names => s!"Unknown option(s) in {path}: " ++ String.intercalate ", " names
  | decoding error => error.message
  | value error => error.message
  | unwritable error => error.message

/-- whether an error is a report about the file, and not passed on as it is -/
def isReport : ConfigError → Bool
  | decoding _ | value _ | unwritable _ => false
  | _ => true

/-- what comes of the refusal of a reader -/
def ofRefusal (path : String) : Yaml.Refusal → ConfigError
  | .undecodable error => decoding error
  | .document .malformed => malformed path
  | .document (.defective cause) => value cause

end ConfigError

/-- the option that a key of a configuration names -/
def OptionName.ofKey? : Value → Option OptionName
  | .text name => ofName? name
  | _ => none

/-- the options that a mapping sets, if all its keys name one -/
def optionsOfPairs (path : String) (pairs : List (Value × Value)) : Except ConfigError (List (String × Value)) := do
  let strangers := (pairs.map (·.1)).filter fun key => (OptionName.ofKey? key).isNone
  let names ← (strangers.mapM Value.plain?).mapError ConfigError.unwritable
  if names ≠ [] then throw (.unknown path (sortTexts names))
  return pairs.filterMap fun (key, value) => (OptionName.ofKey? key).map fun option => (option.name, value)

/-- the options that a document sets, if it sets any -/
def optionsOfDocument (path : String) : Value → Except ConfigError (Option (List (String × Value)))
  | .null => .ok none
  | .mapping pairs => (optionsOfPairs path pairs).map some
  | _ => .error (.noMapping path)

/-- the options that a configuration file sets; of an empty one there is notice -/
def loadOptions (reader : Yaml.Reader) (path : String) : Action ConfigError (List (String × Value)) := do
  let file := Path.ofText path.toList
  unless ← Action.pathExists file do throw (.notFound path)
  let bytes ← (Action.readFile file).adapt (.unreadable path)
  let document ← Action.ofExcept (.ofRefusal path) (reader bytes)
  match ← Action.ofExcept id (optionsOfDocument path document) with
  | some options => return options
  | none =>
    Action.tell (.emptyConfig path)
    return []

end Drumline
