/-
Sessions. A session is what a run sees and changes: a tree of files, the working directory in it, the notices given so
far and the text printed. An action on a session ends with a result or an error, and what it did to the session before
an error stays done.
-/
import Drumline.FileTree
import Drumline.Notice

namespace Drumline

structure Session where
  tree : FileTree
  workingDirectory : Location
  notices : List Notice := []
  output : String := ""

/-- what changes a session and ends with a result or an error -/
abbrev Action (ε : Type) := ExceptT ε (StateM Session)

namespace Action

variable {ε δ α : Type}

/-- a result that does not depend on the session -/
def ofExcept (wrap : δ → ε) : Except δ α → Action ε α
  | .ok a => pure a
  | .error e => throw (wrap e)

def tell (notice : Notice) : Action ε Unit :=
  modify fun session => { session with notices := session.notices ++ [notice] }

def print (text : String) : Action ε Unit :=
  modify fun session => { session with output := session.output ++ text }

def readFile (path : Path) : Action FileError (List UInt8) := do
  let session ← get
  ofExcept id (session.tree.read session.workingDirectory path)

/-- puts a content into a file, new or not -/
def writeFile (path : Path) (content : List UInt8) : Action FileError Unit := do
  let session ← get
  let tree ← ofExcept id (session.tree.write session.workingDirectory path content)
  set { session with tree }

/-- makes a directory and those on the way to it, unless they are there -/
def makeDirectories (path : Path) : Action FileError Unit := do
  let session ← get
  let (result, tree) := session.tree.ensureDirectories session.workingDirectory path
  set { session with tree }
  ofExcept id result

def listDirectory (path : Path) : Action FileError (List FileName) := do
  let session ← get
  ofExcept id (session.tree.list session.workingDirectory path)

/-- whether a path leads to a file; one with too long a name or text is an error -/
def isFile (path : Path) : Action FileError Bool := do
  let session ← get
  match session.tree.find session.workingDirectory path with
  | .ok (.file _) => return true
  | .error (.problem .nameTooLong text) => throw (.problem .nameTooLong text)
  | _ => return false

def isDirectory (path : Path) : Action ε Bool := do
  let session ← get
  return session.tree.isDirectory session.workingDirectory path

def pathExists (path : Path) : Action ε Bool := do
  let session ← get
  return session.tree.contains session.workingDirectory path

/-- the location that a path leads to, as text -/
def locationText (path : Path) : Action ε String := do
  let session ← get
  return (path.location session.workingDirectory).text

end Action

end Drumline
