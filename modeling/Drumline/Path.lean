/-
Paths. A path is a place to start from and the names on the way; one that starts at the root starts with one slash, or
with exactly two. `Path.ofText` keeps every name as it is written. `Path.read` drops the names that lead nowhere, those
without characters and those of a single dot, while two dots stay.

A location is where a path leads: the names from the root on, without any dots.

`outputPath` names the MIDI file of a pattern file. It fails for a path without a name, such as the root.
-/
import Drumline.FileName
import Drumline.Text.Quoted
import Drumline.Text.Split

namespace Drumline

inductive Origin where
  | workingDirectory
  | root
  | doubleRoot
  deriving DecidableEq, Repr

def Origin.text : Origin → List Char
  | workingDirectory => []
  | root => ['/']
  | doubleRoot => ['/', '/']

structure Path where
  origin : Origin
  names : List FileName
  deriving DecidableEq, Repr

/-- the names from the root to a file or directory -/
abbrev Location := List FileName

namespace Path

/-- where a path starts, by its first three characters -/
def originOf : List Char → Origin
  | '/' :: '/' :: '/' :: _ => .root
  | '/' :: '/' :: _ => .doubleRoot
  | '/' :: _ => .root
  | _ => .workingDirectory

/-- a path with every name as it is written -/
def ofText (text : List Char) : Path :=
  let origin := originOf text
  ⟨origin, Text.splitOn '/' (text.drop origin.text.length)⟩

/-- whether a name leads nowhere -/
def isIdle (name : FileName) : Bool :=
  name == [] || name == ['.']

/-- a path without the names that lead nowhere -/
def read (text : List Char) : Path :=
  let path := ofText text
  { path with names := path.names.filter (!isIdle ·) }

/-- writes a path; one that leads nowhere as a dot -/
def write (p : Path) : List Char :=
  if p.origin = .workingDirectory ∧ p.names = [] then ['.'] else p.origin.text ++ Text.joinWith '/' p.names

def text (p : Path) : String :=
  String.ofList p.write

def name? (p : Path) : Option FileName :=
  p.names.getLast?

def child (p : Path) (name : FileName) : Path :=
  { p with names := p.names ++ [name] }

/-- the path without its last name -/
def parent (p : Path) : Path :=
  { p with names := p.names.dropLast }

/-- a path with every name as it is written is written as it was read -/
theorem write_ofText {text : List Char} : (ofText text).write = text := by
  have h : (originOf text).text ++ text.drop (originOf text).text.length = text := by
    unfold originOf
    split <;> simp [Origin.text]
  have hn : (ofText text).names ≠ [] := Text.splitOn_ne_nil _ _
  simp only [write, hn, and_false, if_false]
  simpa [ofText, Text.joinWith_splitOn] using h

/-- where a path starts from, given the working directory -/
def start (p : Path) (workingDirectory : Location) : Location :=
  if p.origin = .workingDirectory then workingDirectory else []

end Path

namespace Location

/-- the location that a name leads to from another -/
def step (place : Location) (name : FileName) : Location :=
  if Path.isIdle name then place
  else if name = ['.', '.'] then place.dropLast
  else place ++ [name]

def text (place : Location) : String :=
  String.ofList ('/' :: Text.joinWith '/' place)

end Location

/-- where a path leads, whatever there is -/
def Path.location (p : Path) (workingDirectory : Location) : Location :=
  p.names.foldl Location.step (p.start workingDirectory)

/-- a path without a name where one is needed -/
structure NamelessPath where
  path : Path
  deriving DecidableEq, Repr

def NamelessPath.message (e : NamelessPath) : String :=
  s!"PosixPath({Text.quote e.path.text}) has an empty name"

/-- the path of the MIDI file of a pattern file: beside it, or in a directory -/
def Path.outputPath (input : Path) (directory : Option Path) : Except NamelessPath Path :=
  match input.name? with
  | none => .error ⟨input⟩
  | some name => .ok ((directory.getD input.parent).child (FileName.withSuffix name FileName.midiSuffix))

example : (Path.read "a//b/./c.pat".toList).text = "a/b/c.pat" := by decide +kernel

end Drumline
