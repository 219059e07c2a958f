/-
File names and their endings, by two rules that nearly agree. `stripExtension` names a track after a file: it drops the
last dot and what follows, if something follows and no slash is in it. `withSuffix` names a file after another: it
replaces the same ending, except in a name that starts with its only dot, which has no ending and gets one.
-/
namespace Drumline

abbrev FileName := List Char

namespace FileName

/-- the name without its last extension -/
def stripExtension (name : FileName) : FileName :=
  let ending := name.reverse.takeWhile fun c => c ≠ '.' && c ≠ '/'
  match name.reverse.dropWhile fun c => c ≠ '.' && c ≠ '/' with
  | '.' :: stem => if ending = [] then name else stem.reverse
  | _ => name

/-- the name with another suffix, which takes the place of an ending behind a dot that is neither its first nor its last
character -/
def withSuffix (name : FileName) (suffix : List Char) : FileName :=
  let ending := name.reverse.takeWhile (· ≠ '.')
  match name.reverse.dropWhile (· ≠ '.') with
  | _ :: stem => if ending = [] ∨ stem = [] then name ++ suffix else stem.reverse ++ suffix
  | [] => name ++ suffix

def patternSuffix : List Char := ".pat".toList

def midiSuffix : List Char := ".mid".toList

/-- the directory inside a directory of patterns that their MIDI files go to, unless said otherwise -/
def outputDirectory : FileName := "midi".toList

def isPattern (name : FileName) : Bool :=
  patternSuffix.isSuffixOf name

end FileName

end Drumline
