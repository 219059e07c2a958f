/-
Reading the command line. Each word is first classified by itself: it is a switch, perhaps with a value in the same
word, or a word without one. A long name may be cut short as long as it still names one switch. Short names without
values may share one dash. A word that starts with a dash and is no switch is still none if it looks like a negative
number or holds a space; behind a lone double dash there are no switches at all.

Then the words take effect one by one, from the left: a switch that takes a value takes the next word if it has none of
its own, and the first word besides is the target. What is left over is an error in the end.
-/
import Drumline.CommandLine.Switch
import Drumline.Number.Decimal

namespace Drumline.CommandLine

/-- why a command line is not understood -/
inductive UsageError where
  | ambiguous (word : String) (names : List String)
  | valueMissing (switch : Switch)
  | valueUnused (switch : Switch) (value : String)
  | valueMalformed (switch : Switch) (value : String)
  | targetMissing
  | unrecognized (words : List String)
  deriving DecidableEq, Repr

def Switch.kind : Switch → String
  | .option .bpm => "float"
  | _ => "int"

def UsageError.message : UsageError → String
  | .ambiguous word names => s!"ambiguous option: {word} could match " ++ String.intercalate ", " names
  | .valueMissing switch => s!"argument {switch.label}: expected one argument"
  | .valueUnused switch value => s!"argument {switch.label}: ignored explicit argument {Text.quote value}"
  | .valueMalformed switch value => s!"argument {switch.label}: invalid {switch.kind} value: {Text.quote value}"
  | .targetMissing => "the following arguments are required: target"
  | .unrecognized words => "unrecognized arguments: " ++ String.intercalate " " words

/-- a switch in a word, by the name that it stands for, and the text attached to it, perhaps with an equals sign -/
structure Mention where
  name : String
  switch : Switch
  attached : Option (Bool × List Char) := none
  deriving DecidableEq, Repr

/-- the meaning of a word by itself -/
inductive Word where
  | plain (text : String)
  /-- the first lone double dash -/
  | separator
  | mention (mention : Mention)
  /-- a switch that there is none of -/
  | stranger (text : String)
  deriving DecidableEq, Repr

/-- splits a text at its first equals sign -/
def splitEquals (text : List Char) : List Char × Option (List Char) :=
  match text.dropWhile (· ≠ '=') with
  | [] => (text, none)
  | _ :: value => (text.takeWhile (· ≠ '='), some value)

/-- whether a text is a dash and a number in decimal notation; a line feed at its end does not count -/
def isNegativeNumber (text : List Char) : Bool :=
  let text := if text.getLast? = some '\n' then text.dropLast else text
  let isDigit := fun c => (Text.digitValue? c).isSome
  match text with
  | '-' :: rest =>
    match rest.dropWhile isDigit with
    | [] => rest != []
    | '.' :: places => places != [] && places.all isDigit
    | _ => false
  | _ => false

/-- the switches that a word could mention by the start of a long name, or by a short name with something attached -/
def candidates (text : List Char) : List Mention :=
  match text with
  | '-' :: '-' :: _ =>
    let (start, value) := splitEquals text
    (Switch.table.filter fun (name, _) => start.isPrefixOf name.toList).map fun (name, switch) =>
      ⟨name, switch, value.map (true, ·)⟩
  | '-' :: letter :: attached =>
    (Switch.table.filter fun (name, _) => name.toList = ['-', letter]).map fun (name, switch) =>
      ⟨name, switch, some (false, attached)⟩
  | _ => []

/-- the switch that a word mentions by its full name -/
def fullMention? (text : List Char) : Option Mention :=
  match Switch.ofName? (String.ofList text) with
  | some switch => some ⟨String.ofList text, switch, none⟩
  | none =>
    match splitEquals text with
    | (name, some value) =>
      (Switch.ofName? (String.ofList name)).map fun switch => ⟨String.ofList name, switch, some (true, value)⟩
    | _ => none

def classify (word : String) : Except UsageError Word :=
  let text := word.toList
  if text.head? ≠ some '-' ∨ text = ['-'] then .ok (.plain word)
  else match fullMention? text with
    | some mention => .ok (.mention mention)
    | none =>
      match candidates text with
      | [mention] => .ok (.mention mention)
      | [] => .ok (if isNegativeNumber text || text.contains ' ' then .plain word else .stranger word)
      | mentions => .error (.ambiguous word (mentions.map Mention.name))

def classifyAll : List String → Except UsageError (List Word)
  | [] => .ok []
  | word :: words =>
    if word = "--" then .ok (.separator :: words.map .plain)
    else do
      let first ← classify word
      return first :: (← classifyAll words)

/-- what a mention comes to: switches without values, and then, perhaps, a switch with the value attached to it or a
switch that wants one, or a rest of the word that is no switch -/
structure Expansion where
  flags : List (Switch × String)
  valued : Option (Switch × List Char) := none
  wanting : Option Switch := none
  leftover : Option String := none

/-- an expansion with one more switch in front -/
def Expansion.push (switch : Switch) (name : String) (e : Expansion) : Expansion :=
  { e with flags := (switch, name) :: e.flags }

/-- a switch by its short name and the text attached to it, in which other short names may follow -/
def expandShort (name : String) (switch : Switch) (equals : Bool) (attached : List Char) :
    Except UsageError Expansion :=
  if switch.takesValue then .ok { flags := [], valued := some (switch, attached) }
  else match attached with
    | [] => .error (.valueUnused switch "")
    | letter :: rest =>
      if equals ∨ letter = '-' then .error (.valueUnused switch (String.ofList attached))
      else
        let next := String.ofList ['-', letter]
        match Switch.ofName? next with
        | none => .ok { flags := [(switch, name)], leftover := some (String.ofList ('-' :: attached)) }
        | some other =>
          let e : Except UsageError Expansion := match rest with
            | [] =>
              .ok (if other.takesValue then { flags := [], wanting := some other } else { flags := [(other, next)] })
            | '=' :: value => expandShort next other true value
            | c :: more => expandShort next other false (c :: more)
          e.map (·.push switch name)
termination_by attached.length

def Mention.expand (mention : Mention) : Except UsageError Expansion :=
  match mention.attached with
  | none =>
    if mention.switch.takesValue then .ok { flags := [], wanting := some mention.switch }
    else .ok { flags := [(mention.switch, mention.name)] }
  | some (equals, attached) =>
    if mention.name.toList.take 2 = ['-', '-'] then
      if mention.switch.takesValue then .ok { flags := [], valued := some (mention.switch, attached) }
      else .error (.valueUnused mention.switch (String.ofList attached))
    else expandShort mention.name mention.switch equals attached

structure Arguments where
  target : String
  output : Option String := none
  debug : Bool := false
  config : Option String := none
  quiet : Bool := false
  /-- the options that are set, the last of each name counting -/
  options : List (OptionName × Value) := []

/-- why there are no arguments to go on with -/
inductive Stop where
  | help
  | usage (error : UsageError)
  deriving DecidableEq, Repr

/-- sets an option to a number in a text -/
def setOption (a : Arguments) (name : OptionName) (text : String) : Except Stop Arguments :=
  let value := match name with
    | .bpm => (readDouble? text).map .double
    | _ => (readInteger 10 text).toOption.map .int
  match value with
  | some value => .ok { a with options := a.options ++ [(name, value)] }
  | none => .error (.usage (.valueMalformed (.option name) text))

def applyValue (a : Arguments) (value : String) : Switch → Except Stop Arguments
  | .output => .ok { a with output := some value }
  | .config => .ok { a with config := some value }
  | .option name => setOption a name value
  | .help | .debug | .quiet => .ok a

def applyFlag (a : Arguments) (name : String) : Switch → Except Stop Arguments
  | .help => .error .help
  | .debug => .ok { a with debug := true }
  | .quiet => .ok { a with quiet := true }
  | .option option => .ok { a with options := a.options ++ [(option, .bool (name ≠ "--flams"))] }
  | .output | .config => .ok a

/-- how far a command line is read: the arguments so far, whether a target is among them, the words left over, the
switch that wants the next word and those in its word, and whether the last word was the target -/
structure Progress where
  arguments : Arguments := { target := "" }
  hasTarget : Bool := false
  leftover : List String := []
  wanting : Option (List (Switch × String) × Switch) := none
  behindTarget : Bool := false

namespace Progress

def applyFlags (p : Progress) (flags : List (Switch × String)) : Except Stop Progress := do
  let arguments ← flags.foldlM (fun a (switch, name) => applyFlag a name switch) p.arguments
  return { p with arguments }

/-- applies switches, the last of them with a value -/
def applyAll (p : Progress) (flags : List (Switch × String)) (switch : Switch) (value : String) :
    Except Stop Progress := do
  let p ← p.applyFlags flags
  return { p with arguments := ← applyValue p.arguments value switch }

/-- reads a word that is no switch and the value of none -/
def addPlain (p : Progress) (text : String) : Progress :=
  if p.hasTarget then { p with leftover := p.leftover ++ [text] }
  else { p with arguments := { p.arguments with target := text }, hasTarget := true, behindTarget := true }

def addMention (p : Progress) (mention : Mention) : Except Stop Progress := do
  let e ← mention.expand.mapError .usage
  match e.wanting, e.valued with
  | some switch, _ => return { p with wanting := some (e.flags, switch) }
  | none, some (switch, value) => p.applyAll e.flags switch (String.ofList value)
  | none, none =>
    return { ← p.applyFlags e.flags with leftover := p.leftover ++ e.leftover.toList }

/-- Reads one word. A switch that wants a value takes no switch and no double dash for it. The double dash is dropped
next to the target. -/
def step (p : Progress) (word : Word) : Except Stop Progress :=
  match p.wanting with
  | some (flags, switch) =>
    match word with
    | .plain text => { p with wanting := none }.applyAll flags switch text
    | _ => .error (.usage (.valueMissing switch))
  | none =>
    let others := { p with behindTarget := false }
    match word with
    | .plain text => .ok (others.addPlain text)
    | .separator =>
      .ok (if p.behindTarget || !p.hasTarget then others else { others with leftover := p.leftover ++ ["--"] })
    | .mention mention => others.addMention mention
    | .stranger text => .ok { others with leftover := p.leftover ++ [text] }

def finish (p : Progress) : Except Stop Arguments :=
  match p.wanting with
  | some (_, switch) => .error (.usage (.valueMissing switch))
  | none =>
    if !p.hasTarget then .error (.usage .targetMissing)
    else if p.leftover ≠ [] then .error (.usage (.unrecognized p.leftover))
    else .ok p.arguments

end Progress

def readArguments (words : List String) : Except Stop Arguments := do
  let words ← (classifyAll words).mapError .usage
  let progress ← words.foldlM Progress.step {}
  progress.finish

end Drumline.CommandLine
