/-
Texts that are cut where they were joined: `splitLines` finds the lines that a line feed ends, and `splitBlanks` the
words that one blank keeps apart, as long as no line holds a line break and no word a blank.

Whatever a text holds, a line feed behind it ends its last line (`splitLines_append_cons`), and adds none but one
without characters (`splitLines_append_singleton`).
-/
import Drumline.Text.Blank
import Mathlib.Tactic

namespace Drumline.Text

variable {line word other rest : List Char}

/-- a character that does not break a line -/
theorem splitLines_cons {c : Char} (h : isLineBreak c = false) (rest : List Char) :
    splitLines (c :: rest) = consLine c (splitLines rest) := by
  rw [splitLines.eq_3]
  · rw [if_neg (by rw [h]; exact Bool.false_ne_true)]
  · rintro _ rfl -
    exact absurd h (by decide)

theorem splitLines_append_lineFeed (h : ∀ c ∈ line, isLineBreak c = false) (rest : List Char) :
    splitLines (line ++ '\n' :: rest) = line :: splitLines rest := by
  induction line with
  | nil => rfl
  | cons c line ih =>
    rw [List.cons_append, splitLines_cons (h c List.mem_cons_self), ih fun c hc => h c (List.mem_cons_of_mem _ hc)]
    rfl

/-- the lines of a text that is put together from them -/
theorem splitLines_flatMap {lines : List (List Char)} (h : ∀ line ∈ lines, ∀ c ∈ line, isLineBreak c = false) :
    splitLines (lines.flatMap (· ++ ['\n'])) = lines := by
  induction lines with
  | nil => rfl
  | cons line lines ih =>
    rw [List.flatMap_cons, List.append_assoc, List.singleton_append,
      splitLines_append_lineFeed (h line List.mem_cons_self), ih fun l hl => h l (List.mem_cons_of_mem _ hl)]

theorem splitLines_ne_nil {text : List Char} (h : text ≠ []) : splitLines text ≠ [] := by
  fun_cases splitLines text with
  | case1 => exact absurd rfl h
  | case2 rest => exact List.cons_ne_nil _ _
  | case3 c rest hpair hbreak => exact List.cons_ne_nil _ _
  | case4 c rest hpair hbreak =>
    cases splitLines rest with
    | nil => exact List.cons_ne_nil _ _
    | cons line lines => exact List.cons_ne_nil _ _

theorem consLine_append (c : Char) {lines : List (List Char)} (h : lines ≠ []) (others : List (List Char)) :
    consLine c (lines ++ others) = consLine c lines ++ others := by
  cases lines with
  | nil => exact absurd rfl h
  | cons line lines => rfl

/-- a line break in front of a line feed is the first half of one break, or it ends a line of its own -/
theorem splitLines_break_append {c : Char} {tail : List Char} (hbreak : isLineBreak c = true)
    (hpair : ∀ rest, c = '\r' → tail = '\n' :: rest → False) :
    (c = '\r' ∧ tail = []) ∨
      ∀ rest, splitLines (c :: (tail ++ '\n' :: rest)) = [] :: splitLines (tail ++ '\n' :: rest) := by
  by_cases hhalf : c = '\r' ∧ tail = []
  · exact .inl hhalf
  · right
    intro rest
    rw [splitLines.eq_3, if_pos hbreak]
    intro other hc htail
    cases tail with
    | nil => exact hhalf ⟨hc, rfl⟩
    | cons d tail =>
      obtain ⟨rfl, -⟩ : d = '\n' ∧ tail ++ '\n' :: rest = other := by simpa using htail
      exact hpair tail hc rfl

/-- a line feed ends a line, whatever is before it and behind it -/
theorem splitLines_append_cons (text rest : List Char) :
    splitLines (text ++ '\n' :: rest) = splitLines (text ++ ['\n']) ++ splitLines rest := by
  fun_induction splitLines text with
  | case1 => rfl
  | case2 tail ih =>
    simp only [List.cons_append, splitLines]
    rw [ih]
  | case3 c tail hpair hbreak ih =>
    rcases splitLines_break_append hbreak hpair with ⟨rfl, rfl⟩ | hwhole
    · rfl
    · rw [List.cons_append, List.cons_append, hwhole, hwhole, ih, List.cons_append]
  | case4 c tail hpair hbreak ih =>
    have hplain : isLineBreak c = false := by simpa using hbreak
    have hsome : splitLines (tail ++ ['\n']) ≠ [] := splitLines_ne_nil (by simp)
    rw [List.cons_append, List.cons_append, splitLines_cons hplain, splitLines_cons hplain, ih,
      consLine_append c hsome]

/-- a line feed at the end of a text opens at most a line without characters -/
theorem splitLines_append_singleton (text : List Char) :
    splitLines (text ++ ['\n']) = splitLines text ∨ splitLines (text ++ ['\n']) = splitLines text ++ [[]] := by
  fun_induction splitLines text with
  | case1 => exact .inr rfl
  | case2 tail ih =>
    simp only [List.cons_append, splitLines]
    rcases ih with ih | ih
    · exact .inl (by rw [ih])
    · exact .inr (by rw [ih])
  | case3 c tail hpair hbreak ih =>
    rcases splitLines_break_append hbreak hpair with ⟨rfl, rfl⟩ | hwhole
    · exact .inl rfl
    · rw [List.cons_append, hwhole]
      rcases ih with ih | ih
      · exact .inl (by rw [ih])
      · exact .inr (by rw [ih, List.cons_append])
  | case4 c tail hpair hbreak ih =>
    have hplain : isLineBreak c = false := by simpa using hbreak
    rw [List.cons_append, splitLines_cons hplain]
    rcases ih with ih | ih
    · exact .inl (by rw [ih])
    · cases tail with
      | nil => exact .inl rfl
      | cons d tail =>
        right
        rw [ih, consLine_append c (splitLines_ne_nil (List.cons_ne_nil d tail))]

theorem splitBlanks_cons_cons {c d : Char} (hc : isBlank c = false) (hd : isBlank d = false) (rest : List Char) :
    splitBlanks (c :: d :: rest) = consLine c (splitBlanks (d :: rest)) := by
  rw [splitBlanks, hc, if_neg Bool.false_ne_true]
  show (if isBlank d then _ else _) = _
  rw [hd, if_neg Bool.false_ne_true]

theorem splitBlanks_append_blank (hne : word ≠ []) (h : ∀ c ∈ word, isBlank c = false) (rest : List Char) :
    splitBlanks (word ++ ' ' :: rest) = word :: splitBlanks rest := by
  induction word with
  | nil => exact absurd rfl hne
  | cons c word ih =>
    have hc := h c List.mem_cons_self
    cases word with
    | nil =>
      rw [List.cons_append, List.nil_append, splitBlanks, hc, if_neg Bool.false_ne_true]
      rfl
    | cons d word =>
      have htail := ih (List.cons_ne_nil _ _) fun c hc => h c (List.mem_cons_of_mem _ hc)
      rw [List.cons_append] at htail
      rw [List.cons_append, List.cons_append,
        splitBlanks_cons_cons hc (h d (List.mem_cons_of_mem _ List.mem_cons_self)), htail]
      rfl

theorem splitBlanks_of_word (hne : word ≠ []) (h : ∀ c ∈ word, isBlank c = false) : splitBlanks word = [word] := by
  induction word with
  | nil => exact absurd rfl hne
  | cons c word ih =>
    have hc := h c List.mem_cons_self
    cases word with
    | nil => rw [splitBlanks, hc, if_neg Bool.false_ne_true]
    | cons d word =>
      rw [splitBlanks_cons_cons hc (h d (List.mem_cons_of_mem _ List.mem_cons_self)),
        ih (List.cons_ne_nil _ _) fun c hc => h c (List.mem_cons_of_mem _ hc)]
      rfl

theorem splitBlanks_pair (hne : word ≠ []) (hne' : other ≠ []) (h : ∀ c ∈ word, isBlank c = false)
    (h' : ∀ c ∈ other, isBlank c = false) : splitBlanks (word ++ ' ' :: other) = [word, other] := by
  rw [splitBlanks_append_blank hne h, splitBlanks_of_word hne' h']

end Drumline.Text
