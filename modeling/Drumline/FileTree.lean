/-
A tree of files and directories. It maps locations to entries; the root is always a directory. `FileTree.locate` follows
a path name by name, and each name but the last has to lead into a directory. Reading, writing, making and listing say
with a `FileError` what stands in their way.

Premises on disks, for a tree to be all that there is to a disk:
- there are files and directories, but no links, and whoever runs the program may read and write all of them;
- nothing else changes a disk during a run, and it neither fills up nor breaks down;
- the directories on the way to a path can be made however many they are;
- names and contents are written in UTF-8, and no text holds a surrogate.

Main statements: `get?_put_self` and `get?_put_of_ne`, what is put at a location is found there and changes no other.
-/
import Drumline.Path
import Drumline.Text.Utf8

namespace Drumline

inductive FileTree.Entry where
  | file (content : List UInt8)
  | directory
  deriving DecidableEq, Repr

structure FileTree where
  entries : List (Location × FileTree.Entry)
  distinct : (entries.map Prod.fst).Nodup

inductive FileProblem where
  | missing | occupied | notDirectory | isDirectory | nameTooLong
  deriving DecidableEq, Repr

/-- the number by which systems know a problem, and its name -/
def FileProblem.label : FileProblem → Nat × String
  | missing => (2, "No such file or directory")
  | occupied => (17, "File exists")
  | notDirectory => (20, "Not a directory")
  | isDirectory => (21, "Is a directory")
  | nameTooLong => (36, "File name too long")

inductive FileError where
  | problem (kind : FileProblem) (path : String)
  | embeddedNul
  deriving DecidableEq, Repr

def FileError.message : FileError → String
  | problem kind path => s!"[Errno {kind.label.1}] {kind.label.2}: {Text.quote path}"
  | embeddedNul => "embedded null byte"

def maxNameBytes : Nat := 255

def maxPathBytes : Nat := 4095

namespace FileTree

/-- a list of entries with one more, or with another entry in its place -/
def putEntry (place : Location) (entry : Entry) : List (Location × Entry) → List (Location × Entry)
  | [] => [(place, entry)]
  | (other, old) :: rest =>
    if other = place then (other, entry) :: rest else (other, old) :: putEntry place entry rest

theorem mem_map_fst_putEntry {place other : Location} {entry : Entry} {entries : List (Location × Entry)} :
    other ∈ (putEntry place entry entries).map Prod.fst ↔ other = place ∨ other ∈ entries.map Prod.fst := by
  induction entries with
  | nil => simp [putEntry]
  | cons head rest ih =>
    obtain ⟨key, old⟩ := head
    by_cases h : key = place
    · simp [putEntry, h]
    · simp only [putEntry, h, if_false, List.map_cons, List.mem_cons, ih]
      exact or_left_comm

theorem nodup_putEntry {place : Location} {entry : Entry} {entries : List (Location × Entry)}
    (h : (entries.map Prod.fst).Nodup) : ((putEntry place entry entries).map Prod.fst).Nodup := by
  induction entries with
  | nil => simp [putEntry]
  | cons head rest ih =>
    obtain ⟨key, old⟩ := head
    by_cases hk : key = place
    · simpa [putEntry, hk] using h
    · rw [List.map_cons, List.nodup_cons] at h
      simp only [putEntry, hk, if_false, List.map_cons, List.nodup_cons]
      refine ⟨fun hm => ?_, ih h.2⟩
      rcases mem_map_fst_putEntry.1 hm with rfl | hm
      · exact hk rfl
      · exact h.1 hm

def empty : FileTree := ⟨[], by simp⟩

def get? (t : FileTree) (place : Location) : Option Entry :=
  if place = [] then some .directory else t.entries.lookup place

/-- the tree with an entry at a location -/
def put (t : FileTree) (place : Location) (entry : Entry) : FileTree :=
  ⟨putEntry place entry t.entries, nodup_putEntry t.distinct⟩

theorem lookup_putEntry {place other : Location} {entry : Entry} {entries : List (Location × Entry)} :
    (putEntry place entry entries).lookup other = if other = place then some entry else entries.lookup other := by
  induction entries with
  | nil =>
    by_cases h : other = place
    · simp [putEntry, h]
    · simp [putEntry, List.lookup_cons, h, beq_false_of_ne h]
  | cons head rest ih =>
    obtain ⟨key, old⟩ := head
    by_cases hk : key = place
    · subst hk
      by_cases h : other = key
      · simp [putEntry, h]
      · simp [putEntry, List.lookup_cons, h, beq_false_of_ne h]
    · by_cases h : other = key
      · simp [putEntry, hk, h]
      · simp [putEntry, List.lookup_cons, hk, beq_false_of_ne h, ih]

/-- what is put is found -/
theorem get?_put_self (t : FileTree) {place : Location} (entry : Entry) (h : place ≠ []) :
    (t.put place entry).get? place = some entry := by
  simp [get?, put, h, lookup_putEntry]

/-- putting changes no other location -/
theorem get?_put_of_ne (t : FileTree) {place other : Location} (entry : Entry) (h : other ≠ place) :
    (t.put place entry).get? other = t.get? other := by
  simp [get?, put, lookup_putEntry, h]

/-- follows names from a location -/
def follow (t : FileTree) (place : Location) : List FileName → Except FileProblem Location
  | [] => .ok place
  | name :: names =>
    match t.get? place with
    | none => .error .missing
    | some (.file _) => .error .notDirectory
    | some .directory =>
      if maxNameBytes < (Text.encode name).length then .error .nameTooLong
      else t.follow (place.step name) names

/-- the location of a path; the last name may be that of nothing yet -/
def locate (t : FileTree) (workingDirectory : Location) (path : Path) : Except FileError Location :=
  if '\x00' ∈ path.write then .error .embeddedNul
  else if path.write = [] then .error (.problem .missing path.text)
  else if maxPathBytes < (Text.encode path.write).length then .error (.problem .nameTooLong path.text)
  else (t.follow (path.start workingDirectory) path.names).mapError (.problem · path.text)

/-- what a path leads to -/
def find (t : FileTree) (workingDirectory : Location) (path : Path) : Except FileError Entry := do
  match t.get? (← t.locate workingDirectory path) with
  | some entry => return entry
  | none => throw (.problem .missing path.text)

def contains (t : FileTree) (workingDirectory : Location) (path : Path) : Bool :=
  (t.find workingDirectory path).isOk

def isDirectory (t : FileTree) (workingDirectory : Location) (path : Path) : Bool :=
  match t.find workingDirectory path with
  | .ok .directory => true
  | _ => false

def read (t : FileTree) (workingDirectory : Location) (path : Path) : Except FileError (List UInt8) := do
  match ← t.find workingDirectory path with
  | .file content => return content
  | .directory => throw (.problem .isDirectory path.text)

def write (t : FileTree) (workingDirectory : Location) (path : Path) (content : List UInt8) :
    Except FileError FileTree := do
  let place ← t.locate workingDirectory path
  match t.get? place with
  | some .directory => throw (.problem .isDirectory path.text)
  | _ => return t.put place (.file content)

def makeDirectory (t : FileTree) (workingDirectory : Location) (path : Path) : Except FileError FileTree := do
  let place ← t.locate workingDirectory path
  match t.get? place with
  | some _ => throw (.problem .occupied path.text)
  | none => return t.put place .directory

/-- the tree with a directory, new or not -/
def ensureDirectory (t : FileTree) (workingDirectory : Location) (path : Path) : Except FileError FileTree :=
  match t.makeDirectory workingDirectory path with
  | .error error => if t.isDirectory workingDirectory path then .ok t else .error error
  | made => made

/-- The tree with a directory and those on the way to it. A directory made on the way stays if a later one fails. -/
def ensureDirectories (t : FileTree) (workingDirectory : Location) (path : Path) : Except FileError Unit × FileTree :=
  match t.ensureDirectory workingDirectory path with
  | .ok t => (.ok (), t)
  | .error (.problem .missing text) =>
    if h : path.names = [] then (.error (.problem .missing text), t)
    else
      have : path.parent.names.length < path.names.length := by
        have := List.length_pos_iff.2 h
        simp only [Path.parent, List.length_dropLast]
        omega
      match t.ensureDirectories workingDirectory path.parent with
      | (.error error, t) => (.error error, t)
      | (.ok (), t) =>
        match t.ensureDirectory workingDirectory path with
        | .ok t => (.ok (), t)
        | .error error => (.error error, t)
  | .error error => (.error error, t)
termination_by path.names.length

/-- the names of the entries directly inside a location, in the order of their code points -/
def namesIn (t : FileTree) (place : Location) : List FileName :=
  let names := t.entries.filterMap fun (inner, _) => if inner.dropLast = place then inner.getLast? else none
  names.mergeSort fun a b => !(b < a)

/-- the names of the entries directly inside a directory -/
def list (t : FileTree) (workingDirectory : Location) (path : Path) : Except FileError (List FileName) := do
  let place ← t.locate workingDirectory path
  match t.get? place with
  | some .directory => return t.namesIn place
  | some (.file _) => throw (.problem .notDirectory path.text)
  | none => throw (.problem .missing path.text)

end FileTree

end Drumline
