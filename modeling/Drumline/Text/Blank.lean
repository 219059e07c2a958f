/-
Blanks and line breaks of Unicode text, and the two ways of cutting a text at them: `splitLines` into its lines and
`splitBlanks` into its words.

A line break ends a line, so a text that ends with one has no empty last line; a carriage return and a line feed
together are one break. `splitBlanks` drops every blank and leaves no empty word.
-/
namespace Drumline.Text

/-- the white space of Unicode, and the four separators 0x1C to 0x1F -/
def isBlank (c : Char) : Bool :=
  let n := c.toNat
  (9 ≤ n && n ≤ 13) || (28 ≤ n && n ≤ 32) || n == 0x85 || n == 0xA0 || n == 0x1680 || (0x2000 ≤ n && n ≤ 0x200A)
    || n == 0x2028 || n == 0x2029 || n == 0x202F || n == 0x205F || n == 0x3000

def isLineBreak (c : Char) : Bool :=
  let n := c.toNat
  (10 ≤ n && n ≤ 13) || (28 ≤ n && n ≤ 30) || n == 0x85 || n == 0x2028 || n == 0x2029

/-- puts a character in front of the first line, which it opens if there is none -/
def consLine (c : Char) : List (List Char) → List (List Char)
  | [] => [[c]]
  | line :: lines => (c :: line) :: lines

/-- the lines of a text, without their breaks -/
def splitLines : List Char → List (List Char)
  | [] => []
  | '\r' :: '\n' :: rest => [] :: splitLines rest
  | c :: rest => if isLineBreak c then [] :: splitLines rest else consLine c (splitLines rest)

/-- the words of a text: the longest runs without a blank -/
def splitBlanks : List Char → List (List Char)
  | [] => []
  | c :: rest =>
    if isBlank c then splitBlanks rest
    else match rest with
      | [] => [[c]]
      | d :: _ => if isBlank d then [c] :: splitBlanks rest else consLine c (splitBlanks rest)

theorem isBlank_of_isLineBreak {c : Char} (h : isLineBreak c = true) : isBlank c = true := by
  simp only [isLineBreak, isBlank, Bool.or_eq_true, Bool.and_eq_true, decide_eq_true_eq, beq_iff_eq] at *
  omega

/-- no word is empty and none holds a blank -/
theorem ne_nil_and_not_isBlank_of_mem_splitBlanks {text word : List Char} (h : word ∈ splitBlanks text) :
    word ≠ [] ∧ ∀ c ∈ word, isBlank c = false := by
  fun_induction splitBlanks text generalizing word with
  | case1 => simp at h
  | case2 c rest _ ih => exact ih h
  | case3 c hc => simp_all
  | case4 c hc d tail hd ih =>
    rcases List.mem_cons.1 h with rfl | h
    · simp_all
    · exact ih h
  | case5 c hc d tail hd ih =>
    cases hs : splitBlanks (d :: tail) with
    | nil => simp_all [consLine]
    | cons line lines =>
      rw [hs, consLine] at h
      rcases List.mem_cons.1 h with rfl | h
      · obtain ⟨_, hl⟩ := @ih line (by simp [hs])
        simp_all
      · exact ih (by simp [hs, h])

end Drumline.Text
