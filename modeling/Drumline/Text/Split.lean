/-
Cutting a text at every place of one character, and joining the pieces again.
-/
namespace Drumline.Text

/-- the pieces of a text between the places of a character; a text without it is one piece -/
def splitOn (mark : Char) : List Char → List (List Char)
  | [] => [[]]
  | c :: rest =>
    if c = mark then [] :: splitOn mark rest
    else match splitOn mark rest with
      | [] => [[c]]
      | piece :: pieces => (c :: piece) :: pieces

/-- some pieces with a character between each two -/
def joinWith (mark : Char) (pieces : List (List Char)) : List Char :=
  [mark].intercalate pieces

theorem splitOn_ne_nil (mark : Char) (text : List Char) : splitOn mark text ≠ [] := by
  cases text with
  | nil => simp [splitOn]
  | cons c rest =>
    simp only [splitOn]
    split
    · simp
    · split <;> simp

/-- joining the pieces of a text gives the text -/
theorem joinWith_splitOn (mark : Char) (text : List Char) : joinWith mark (splitOn mark text) = text := by
  induction text with
  | nil => rfl
  | cons c rest ih =>
    cases h : splitOn mark rest with
    | nil => exact absurd h (splitOn_ne_nil mark rest)
    | cons piece pieces =>
      rw [h] at ih
      by_cases hc : c = mark
      · subst hc
        cases pieces <;> simp_all [splitOn, joinWith, List.intercalate]
      · cases pieces <;> simp_all [splitOn, joinWith, List.intercalate]

/-- the first piece of a text is at its front, and the others are inside it -/
theorem exists_splitOn_prefix (mark : Char) (text : List Char) : ∃ piece pieces,
    splitOn mark text = piece :: pieces ∧ piece <+: text ∧ ∀ other ∈ pieces, other <:+: text := by
  induction text with
  | nil => exact ⟨[], [], rfl, List.nil_prefix, by simp⟩
  | cons c rest ih =>
    obtain ⟨piece, pieces, hsplit, hprefix, hpieces⟩ := ih
    have hrest (other : List Char) (h : other <:+: rest) : other <:+: c :: rest :=
      h.trans (List.suffix_cons c rest).isInfix
    have hothers : ∀ other ∈ pieces, other <:+: c :: rest := fun other h => hrest other (hpieces other h)
    unfold splitOn
    rw [hsplit]
    split
    · exact ⟨[], piece :: pieces, rfl, List.nil_prefix, by simpa using ⟨hrest piece hprefix.isInfix, hothers⟩⟩
    · exact ⟨c :: piece, pieces, rfl, (List.prefix_cons_inj c).2 hprefix, hothers⟩

theorem infix_of_mem_splitOn {mark : Char} {text piece : List Char} (h : piece ∈ splitOn mark text) :
    piece <:+: text := by
  obtain ⟨first, pieces, hsplit, hprefix, hpieces⟩ := exists_splitOn_prefix mark text
  rw [hsplit] at h
  rcases List.mem_cons.1 h with rfl | h
  · exact hprefix.isInfix
  · exact hpieces piece h

theorem length_splitOn (mark : Char) (text : List Char) : (splitOn mark text).length = text.count mark + 1 := by
  induction text with
  | nil => rfl
  | cons c rest ih =>
    obtain ⟨piece, pieces, hsplit, -⟩ := exists_splitOn_prefix mark rest
    rw [hsplit] at ih
    unfold splitOn
    rw [hsplit]
    split
    · rename_i hmark
      simp [hmark, ← ih]
    · rename_i hmark
      simpa [List.count_cons_of_ne hmark] using ih

end Drumline.Text
