/-
Pattern text from a pattern: one line for each instrument, with the note as a number, and the accent line last if there
is a mask. A note of too many digits is not written.
-/
import Drumline.Number.Numeral
import Drumline.Kit
import Drumline.Pattern.Basic

namespace Drumline

def Hit.format (hit : Hit) : Except UnwritableInteger (List Char) :=
  (writeInteger hit.note).map fun note => note.toList ++ ' ' :: hit.steps ++ ['\n']

def formatAccents (mask : List Bool) : List Char :=
  accentKey.toList ++ ' ' :: mask.map (fun accent => if accent then 'x' else '-') ++ ['\n']

/-- the text of a pattern; every line ends with a line feed -/
def Pattern.format (p : Pattern) : Except UnwritableInteger (List Char) :=
  (p.hits.mapM Hit.format).map fun lines =>
    lines.flatten ++ if p.accents = [] then [] else formatAccents p.accents

end Drumline
