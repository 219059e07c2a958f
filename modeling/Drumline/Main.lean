/-
The program. It reads what a command line could need from the disk into a tree, runs the command line on that, and
writes back what has changed: new directories first, then files.

Left out of the program are the layout of its help, interrupts, and bounds on memory and on the depth of calls. Of what
it stands on, `FileTree` says what there is to disks, and `Yaml.Reader` what is asked of readers of YAML, of which
`Yaml.reader` is one: the header of `Yaml.Document` lists the values that it does not know. MIDI is files only, and
nothing is played.
-/
import Drumline.CommandLine.Help
import Drumline.CommandLine.Run
import Drumline.Yaml.Document

namespace Drumline

/-- the paths that a command line may read or write at -/
def CommandLine.Arguments.paths (a : CommandLine.Arguments) : List Path :=
  let target := Path.read a.target.toList
  let others := (a.config.toList ++ a.output.toList).map fun text => Path.read text.toList
  let beside := (target.outputPath none).toOption.toList
  target :: target.child FileName.outputDirectory :: beside ++ others

/-- adds what is on the disk at a location -/
def loadEntry (tree : FileTree) (place : Location) : IO FileTree := do
  let path := (← IO.currentDir) / place.text
  if ← path.isDir then return tree.put place .directory
  else if ← path.pathExists then return tree.put place (.file (← IO.FS.readBinFile path).toList)
  else return tree

/-- adds what is on the disk on the way to a location -/
def loadWay (tree : FileTree) (place : Location) : IO FileTree :=
  (List.range place.length).foldlM (fun tree n => loadEntry tree (place.take (n + 1))) tree

/-- adds what is on the disk directly inside a location -/
def loadInside (tree : FileTree) (place : Location) : IO FileTree := do
  let path := (← IO.currentDir) / place.text
  if ← path.isDir then
    (← path.readDir).foldlM (fun tree entry => loadEntry tree (place ++ [entry.fileName.toList])) tree
  else return tree

/-- what a command line could need from the disk -/
def loadTree (a : CommandLine.Arguments) (workingDirectory : Location) : IO FileTree := do
  let places := a.paths.map fun path => path.location workingDirectory
  let tree ← places.foldlM loadWay (← loadWay FileTree.empty workingDirectory)
  let target := Path.read a.target.toList
  let output := (a.output.map fun text => Path.read text.toList).getD (target.child FileName.outputDirectory)
  let directories := [target.location workingDirectory, output.location workingDirectory]
  directories.foldlM loadInside tree

def saveTree (before after : FileTree) : IO Unit :=
  after.entries.forM fun (place, entry) => do
    if before.get? place ≠ some entry then
      match entry with
      | .directory => IO.FS.createDir place.text
      | .file content => IO.FS.writeBinFile place.text ⟨content.toArray⟩

def runOnDisk (a : CommandLine.Arguments) : IO UInt32 := do
  let workingDirectory := (Path.read (toString (← IO.currentDir)).toList).names
  let tree ← loadTree a workingDirectory
  let (result, session) := (a.run Yaml.reader).run.run { tree, workingDirectory }
  saveTree tree session.tree
  IO.print session.output
  IO.eprint (a.report session.notices)
  match result with
  | .ok status => return UInt32.ofNat status
  | .error error => do
    IO.eprintln error.message
    return 1

def runProgram (words : List String) : IO UInt32 := do
  match CommandLine.readArguments words with
  | .ok a => runOnDisk a
  | .error stop => do
    match stop with
    | .help => IO.print CommandLine.helpText
    | .usage error => IO.eprint (CommandLine.usage ++ error.line)
    return UInt32.ofNat stop.status

end Drumline

def main (words : List String) : IO UInt32 :=
  Drumline.runProgram words
