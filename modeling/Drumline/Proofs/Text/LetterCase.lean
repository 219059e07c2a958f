/-
Texts that differ only in the case of ASCII letters. `Char.toLower` folds the case of these letters and of no others, so
two such texts are the same after it.

Nothing that cuts a text at characters sees the case: blanks, line breaks and digits are no letters, so the lines and
the words of a text in lower case are its lines and words in lower case (`splitLines_map_toLower`,
`splitBlanks_map_toLower`). Neither does the upper case that keys are compared in, which some letters outside ASCII have
a form of ASCII letters in (`upperAscii_toLower`).
-/
import Drumline.Proofs.Text.Lines
import Drumline.Text.Case
import Drumline.Text.DecimalDigit
import Mathlib

namespace Drumline.Text

/-! ## Characters -/

theorem toNat_toLower (c : Char) :
    c.toLower.toNat = if 65 ≤ c.toNat ∧ c.toNat ≤ 90 then c.toNat + 32 else c.toNat := by
  by_cases hupper : c.isUpper
  · have hrange : 65 ≤ c.toNat ∧ c.toNat ≤ 90 := by
      simpa [Char.isUpper, UInt32.le_iff_toNat_le] using hupper
    have hvalid : (c.toNat + 32).isValidChar := by
      left
      omega
    rw [Char.toLower_eq_of_isUpper hupper, Char.toNat_ofNat, if_pos hvalid, if_pos hrange]
  · have hrange : ¬(65 ≤ c.toNat ∧ c.toNat ≤ 90) := by
      simpa [Char.isUpper, UInt32.le_iff_toNat_le] using hupper
    rw [Char.toLower_eq_of_not_isUpper hupper, if_neg hrange]

/-- only letters become another character, and they become letters -/
theorem toLower_eq_iff {c d : Char} (h : d.toNat < 65) : c.toLower = d ↔ c = d := by
  rw [← Char.toNat_inj, ← Char.toNat_inj, toNat_toLower]
  split <;> omega

@[simp] theorem isBlank_toLower (c : Char) : isBlank c.toLower = isBlank c := by
  rw [Bool.eq_iff_iff]
  simp only [isBlank, toNat_toLower, Bool.or_eq_true, Bool.and_eq_true, decide_eq_true_eq, beq_iff_eq]
  split <;> omega

@[simp] theorem isLineBreak_toLower (c : Char) : isLineBreak c.toLower = isLineBreak c := by
  rw [Bool.eq_iff_iff]
  simp only [isLineBreak, toNat_toLower, Bool.or_eq_true, Bool.and_eq_true, decide_eq_true_eq, beq_iff_eq]
  split <;> omega

@[simp] theorem asciiDigit?_toLower (c : Char) : asciiDigit? c.toLower = asciiDigit? c := by
  simp only [asciiDigit?, Char.le_def, UInt32.le_iff_toNat_le]
  change (if 48 ≤ c.toLower.toNat ∧ c.toLower.toNat ≤ 57 then some (c.toLower.toNat - 48) else none) =
    if 48 ≤ c.toNat ∧ c.toNat ≤ 57 then some (c.toNat - 48) else none
  rw [toNat_toLower]
  split_ifs <;> first | rfl | omega

/-- the characters whose upper case is ASCII, though they are not, have no case that is folded -/
@[simp] theorem upperAscii_toLower (c : Char) : upperAscii c.toLower = upperAscii c := by
  by_cases hletter : c.toNat < 128
  · have hlower : c.toLower.toNat < 128 := by
      rw [toNat_toLower]
      split <;> omega
    rw [upperAscii_of_lt hlower, upperAscii_of_lt hletter, Char.toUpper_toLower_eq_toUpper]
  · have hsame : c.toLower = c := by
      apply Char.toNat_inj.1
      rw [toNat_toLower, if_neg (by omega)]
    rw [hsame]

/-! ## Words and lines -/

/-- a character that is no letter stands in front of a text in lower case where it does in the text -/
theorem exists_of_map_toLower_eq_cons {d : Char} (hd : d.toNat < 65) {text tail : List Char}
    (h : text.map Char.toLower = d :: tail) : ∃ rest, text = d :: rest := by
  obtain ⟨c, rest, rfl, hc, -⟩ := List.map_eq_cons_iff.1 h
  exact ⟨rest, by rw [(toLower_eq_iff hd).1 hc]⟩

@[simp] theorem isWord_map_toLower (word : String) (text : List Char) :
    isWord word (text.map Char.toLower) = isWord word text := by
  simp [isWord, List.flatMap_map]

theorem map_consLine (f : Char → Char) (c : Char) (lines : List (List Char)) :
    (consLine c lines).map (List.map f) = consLine (f c) (lines.map (List.map f)) := by
  cases lines with
  | nil => rfl
  | cons line lines => rfl

theorem splitLines_map_toLower (text : List Char) :
    splitLines (text.map Char.toLower) = (splitLines text).map (List.map Char.toLower) := by
  fun_induction splitLines text with
  | case1 => rfl
  | case2 rest ih =>
    simp only [List.map_cons, List.map_nil]
    rw [← ih]
    rfl
  | case3 c rest hpair hbreak ih =>
    rw [List.map_cons, List.map_cons, splitLines.eq_3, if_pos (by rwa [isLineBreak_toLower]), ih]
    · rfl
    · intro tail hc hrest
      obtain ⟨rest', hrest'⟩ := exists_of_map_toLower_eq_cons (by decide) hrest
      exact hpair rest' ((toLower_eq_iff (by decide)).1 hc) hrest'
  | case4 c rest hpair hbreak ih =>
    rw [map_consLine, List.map_cons, splitLines.eq_3, if_neg (by rwa [isLineBreak_toLower]), ih]
    intro tail hc hrest
    obtain ⟨rest', hrest'⟩ := exists_of_map_toLower_eq_cons (by decide) hrest
    exact hpair rest' ((toLower_eq_iff (by decide)).1 hc) hrest'

theorem splitBlanks_map_toLower (text : List Char) :
    splitBlanks (text.map Char.toLower) = (splitBlanks text).map (List.map Char.toLower) := by
  fun_induction splitBlanks text with
  | case1 => rfl
  | case2 c rest hblank ih =>
    rw [List.map_cons, splitBlanks.eq_def]
    simp [hblank, ih]
  | case3 c hblank =>
    rw [List.map_cons, splitBlanks.eq_def]
    simp [hblank]
  | case4 c hblank d rest hnext ih =>
    rw [List.map_cons] at ih
    rw [List.map_cons, List.map_cons, splitBlanks.eq_def]
    simp [hblank, hnext, ih]
  | case5 c hblank d rest hnext ih =>
    rw [List.map_cons] at ih
    rw [List.map_cons, List.map_cons, splitBlanks.eq_def]
    simp [hblank, hnext, ih, map_consLine]

end Drumline.Text
