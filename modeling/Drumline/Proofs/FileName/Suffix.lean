/-
The names of the MIDI files of pattern files. Such a name ends in the suffix of MIDI files, so that it is not the name
of a pattern file, and is that of an entry (`midi_eq_append`). It is the name of the pattern file with its suffix
replaced, unless that is all of the name: a name that starts with its only dot has no ending to be replaced.

Main result: `midi_eq_midi_iff`, two pattern files have MIDI files of the same name only where one of them is named by
the suffix alone and the other by the suffix twice.
-/
import Drumline.Path
import Mathlib.Tactic

namespace Drumline

namespace FileName

variable {name other : FileName}

/-- the name of the MIDI file of a pattern file -/
def midi (name : FileName) : FileName := name.withSuffix midiSuffix

theorem patternSuffix_eq : patternSuffix = ['.', 'p', 'a', 't'] := by decide

theorem midiSuffix_eq : midiSuffix = ['.', 'm', 'i', 'd'] := by decide

theorem midi_eq_append (name : FileName) : ∃ stem, name.midi = stem ++ midiSuffix := by
  unfold midi withSuffix
  simp only
  split
  · split_ifs
    · exact ⟨_, rfl⟩
    · exact ⟨_, rfl⟩
  · exact ⟨_, rfl⟩

theorem isPattern_iff : name.isPattern = true ↔ ∃ stem, name = stem ++ patternSuffix := by
  rw [isPattern, List.isSuffixOf_iff_suffix]
  exact exists_congr fun _ => eq_comm

theorem isPattern_midi (name : FileName) : name.midi.isPattern = false := by
  obtain ⟨stem, hstem⟩ := name.midi_eq_append
  rw [hstem, Bool.eq_false_iff, Ne, isPattern_iff]
  rintro ⟨other, hother⟩
  rw [midiSuffix_eq, patternSuffix_eq] at hother
  exact absurd (List.append_inj_right' hother rfl) (by decide)

theorem midi_append_patternSuffix {stem : FileName} (hstem : stem ≠ []) :
    midi (stem ++ patternSuffix) = stem ++ midiSuffix := by
  have hreverse : (stem ++ patternSuffix).reverse = 't' :: 'a' :: 'p' :: '.' :: stem.reverse := by
    simp [patternSuffix_eq]
  unfold midi withSuffix
  simp only [hreverse]
  simp [hstem]

/-- a pattern file named by the suffix alone keeps its whole name -/
theorem midi_patternSuffix : midi patternSuffix = patternSuffix ++ midiSuffix := by decide

/-- **Names that coincide.** Two pattern files have MIDI files of the same name only if one of them is named by the
suffix alone, and the other by the suffix twice. -/
theorem midi_eq_midi_iff (hname : name.isPattern = true) (hother : other.isPattern = true) :
    name.midi = other.midi ↔ name = other ∨
      name = patternSuffix ∧ other = patternSuffix ++ patternSuffix ∨
      name = patternSuffix ++ patternSuffix ∧ other = patternSuffix := by
  obtain ⟨stem, rfl⟩ := isPattern_iff.1 hname
  obtain ⟨stem', rfl⟩ := isPattern_iff.1 hother
  by_cases h : stem = []
  · by_cases h' : stem' = []
    · simp [h, h']
    · subst h
      rw [List.nil_append, midi_patternSuffix, midi_append_patternSuffix h', List.append_cancel_right_eq]
      simp [eq_comm, h']
  · by_cases h' : stem' = []
    · subst h'
      rw [List.nil_append, midi_patternSuffix, midi_append_patternSuffix h, List.append_cancel_right_eq]
      simp [h]
    · rw [midi_append_patternSuffix h, midi_append_patternSuffix h', List.append_cancel_right_eq]
      simp [h, h']

/-- a name of more than two characters leads to something of its own -/
theorem step_of_lt_length (place : Location) (h : 2 < name.length) : place.step name = place ++ [name] := by
  have hidle : Path.isIdle name = false := by
    rw [Path.isIdle, Bool.or_eq_false_iff, beq_eq_false_iff_ne, beq_eq_false_iff_ne]
    refine ⟨?_, ?_⟩
    · rintro rfl
      exact absurd h (by decide)
    · rintro rfl
      exact absurd h (by decide)
  have hparent : name ≠ ['.', '.'] := by
    rintro rfl
    exact absurd h (by decide)
  unfold Location.step
  rw [hidle, if_neg Bool.false_ne_true, if_neg hparent]

theorem step_midi (place : Location) (name : FileName) : place.step name.midi = place ++ [name.midi] := by
  obtain ⟨stem, hstem⟩ := name.midi_eq_append
  refine step_of_lt_length place ?_
  rw [hstem, midiSuffix_eq, List.length_append]
  exact Nat.lt_of_lt_of_le (by decide) (Nat.le_add_left _ _)

end FileName

theorem Path.name?_child (p : Path) (name : FileName) : (p.child name).name? = some name := List.getLast?_concat

/-- the MIDI file of a pattern file, in a directory -/
theorem Path.outputPath_child (input directory : Path) (name : FileName) :
    (input.child name).outputPath (some directory) = .ok (directory.child name.midi) := by
  unfold outputPath
  rw [name?_child]
  rfl

end Drumline
