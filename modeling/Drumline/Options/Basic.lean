/-
The settings of a conversion: seven options, each with a default. Options are overridden by name; a null leaves the
option as it is, and a name that is no option is refused. `Options.check` accepts options within their bounds and gives
them as numbers, in the form that a conversion needs; it names the first option that is out of bounds, in a fixed order,
and last of all wants a grace note to be shorter than a step.
-/
import Drumline.Time
import Drumline.Value
import Drumline.Velocity

namespace Drumline

/-- the options, in the order in which they are declared -/
inductive OptionName where
  | bpm | noteDuration | accentVelocity | normalVelocity | flamDuration | flamVelocity | noFlams
  deriving DecidableEq, Repr

namespace OptionName

def all : List OptionName :=
  [bpm, noteDuration, accentVelocity, normalVelocity, flamDuration, flamVelocity, noFlams]

def name : OptionName → String
  | bpm => "bpm"
  | noteDuration => "note_duration"
  | accentVelocity => "accent_velocity"
  | normalVelocity => "normal_velocity"
  | flamDuration => "flam_duration"
  | flamVelocity => "flam_velocity"
  | noFlams => "no_flams"

def ofName? (name : String) : Option OptionName :=
  all.find? (·.name == name)

end OptionName

structure Options where
  bpm : Value := .int Tempo.standard
  noteDuration : Value := .int NoteLength.sixteenth
  accentVelocity : Value := .int Velocity.accent
  normalVelocity : Value := .int Velocity.normal
  flamDuration : Value := .int NoteLength.sixtyFourth
  flamVelocity : Value := .int Velocity.grace
  noFlams : Value := .bool false
  deriving Repr, Inhabited

/-- options as numbers, and the switch of the grace notes -/
structure Settings where
  bpm : Number
  noteDuration : Number
  accentVelocity : Number
  normalVelocity : Number
  flamDuration : Number
  flamVelocity : Number
  noFlams : Bool
  deriving DecidableEq, Repr

/-- why options are refused; a value of any kind stands here as it is shown -/
inductive OptionsError where
  | unknown (names : List String)
  | outOfRange (option : OptionName) (low high : Nat) (value : String)
  | noChoice (option : OptionName) (choices : List Nat) (value : String)
  | flamNotShorter (flam note : Number)
  | noTruthValue (option : OptionName) (value : String)
  /-- a value that is out of bounds and cannot be shown -/
  | unwritable (error : UnwritableInteger)
  deriving DecidableEq, Repr

def OptionsError.message : OptionsError → String
  | .unknown names => "Unknown option(s): " ++ String.intercalate ", " names
  | .outOfRange option low high value => s!"{option.name} must be between {low} and {high}, got {value}"
  | .noChoice option choices value =>
    s!"{option.name} must be one of " ++ String.intercalate ", " (choices.map toString) ++ s!", got {value}"
  | .flamNotShorter flam note => s!"flam_duration ({flam.text}) must be greater than note_duration ({note.text})"
  | .noTruthValue option value => s!"{option.name} must be true or false, got {value}"
  | .unwritable error => error.message

/-- texts in the order of their code points -/
def sortTexts (texts : List String) : List String :=
  texts.mergeSort fun a b => !(b < a)

namespace Options

def get (o : Options) : OptionName → Value
  | .bpm => o.bpm
  | .noteDuration => o.noteDuration
  | .accentVelocity => o.accentVelocity
  | .normalVelocity => o.normalVelocity
  | .flamDuration => o.flamDuration
  | .flamVelocity => o.flamVelocity
  | .noFlams => o.noFlams

def set (o : Options) (option : OptionName) (value : Value) : Options :=
  match option with
  | .bpm => { o with bpm := value }
  | .noteDuration => { o with noteDuration := value }
  | .accentVelocity => { o with accentVelocity := value }
  | .normalVelocity => { o with normalVelocity := value }
  | .flamDuration => { o with flamDuration := value }
  | .flamVelocity => { o with flamVelocity := value }
  | .noFlams => { o with noFlams := value }

@[simp] theorem get_set_self (o : Options) (option : OptionName) (value : Value) :
    (o.set option value).get option = value := by cases option <;> rfl

theorem get_set_of_ne (o : Options) {option other : OptionName} (value : Value) (h : other ≠ option) :
    (o.set option value).get other = o.get other := by cases option <;> cases other <;> first | rfl | exact (h rfl).elim

/-- sets an option, unless the value is a null -/
def override (o : Options) (option : OptionName) : Value → Options
  | .null => o
  | value => o.set option value

/-- the names among overrides that are no options -/
def unknownNames (overrides : List (String × Value)) : List String :=
  (overrides.map (·.1)).filter fun name => (OptionName.ofName? name).isNone

def withOverrides (o : Options) (overrides : List (String × Value)) : Except OptionsError Options :=
  let unknown := unknownNames overrides
  if unknown = [] then
    .ok (overrides.foldl (fun o (name, value) => (OptionName.ofName? name).elim o (o.override · value)) o)
  else .error (.unknown (sortTexts unknown))

/-- refuses a value, which has to be shown for that -/
def refuse {α : Type} (value : Value) (error : String → OptionsError) : Except OptionsError α :=
  match value.show? with
  | .ok text => .error (error text)
  | .error e => .error (.unwritable e)

/-- a number between two bounds -/
def checkRange (o : Options) (option : OptionName) (low high : Nat) : Except OptionsError Number :=
  match (o.get option).number? with
  | some n =>
    if Number.le (.int low) n && Number.le n (.int high) then .ok n
    else refuse (o.get option) (.outOfRange option low high)
  | none => refuse (o.get option) (.outOfRange option low high)

/-- a number equal to one of some choices -/
def checkChoice (o : Options) (option : OptionName) (choices : List Nat) : Except OptionsError Number :=
  match (o.get option).number? with
  | some n =>
    if choices.any fun choice => Number.eqv n (.int choice) then .ok n
    else refuse (o.get option) (.noChoice option choices)
  | none => refuse (o.get option) (.noChoice option choices)

/-- the settings of options within their bounds -/
def check (o : Options) : Except OptionsError Settings := do
  let bpm ← o.checkRange .bpm Tempo.slowest Tempo.fastest
  let noteDuration ← o.checkChoice .noteDuration NoteLength.steps
  let accentVelocity ← o.checkRange .accentVelocity Velocity.least Velocity.greatest
  let normalVelocity ← o.checkRange .normalVelocity Velocity.least Velocity.greatest
  let flamVelocity ← o.checkRange .flamVelocity Velocity.least Velocity.greatest
  let flamDuration ← o.checkChoice .flamDuration NoteLength.graces
  if Number.le flamDuration noteDuration then throw (.flamNotShorter flamDuration noteDuration)
  match o.noFlams with
  | .bool noFlams => return ⟨bpm, noteDuration, accentVelocity, normalVelocity, flamDuration, flamVelocity, noFlams⟩
  | value => refuse value (.noTruthValue .noFlams)

/-- the settings of options whatever their bounds, if they are numbers where numbers are needed -/
def settings? (o : Options) : Option Settings := do
  return ⟨← o.bpm.asNumber?, ← o.noteDuration.asNumber?, ← o.accentVelocity.asNumber?, ← o.normalVelocity.asNumber?,
    ← o.flamDuration.asNumber?, ← o.flamVelocity.asNumber?, o.noFlams.isTrue⟩

end Options

/-- the settings of the default options -/
def Settings.standard : Settings :=
  ⟨.int Tempo.standard, .int NoteLength.sixteenth, .int Velocity.accent, .int Velocity.normal,
    .int NoteLength.sixtyFourth, .int Velocity.grace, false⟩

end Drumline
