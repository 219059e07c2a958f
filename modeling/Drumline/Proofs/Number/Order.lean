/-
The order of numbers across both kinds. Comparison only looks at where numbers stand among all (`Number.position`), and
positions are in a linear order. So whatever is a number compares as its `Number.standing` does.
-/
import Drumline.Number.Basic
import Mathlib.Data.Prod.Lex
import Mathlib.Tactic

namespace Drumline.Number

/-- whether a number has a place in the order, which all but not-a-number have -/
def IsOrdered (n : Number) : Prop := n.position.isSome

/-- the place of a number in the order -/
def standing (n : Number) : Int ×ₗ Rat := toLex (n.position.getD (0, 0))

variable {a b : Number}

theorem isOrdered_int (n : Int) : (Number.int n).IsOrdered := rfl

theorem isOrdered_of_lt (h : Number.lt a b = true) : a.IsOrdered ∧ b.IsOrdered := by
  unfold lt at h
  split at h
  · rename_i ha hb
    exact ⟨by simp [IsOrdered, ha], by simp [IsOrdered, hb]⟩
  · cases h

theorem lt_eq (ha : a.IsOrdered) (hb : b.IsOrdered) : Number.lt a b = decide (a.standing < b.standing) := by
  obtain ⟨p, hp⟩ := Option.isSome_iff_exists.1 ha
  obtain ⟨q, hq⟩ := Option.isSome_iff_exists.1 hb
  rw [standing, standing, lt, hp, hq, Option.getD_some, Option.getD_some, Bool.eq_iff_iff, decide_eq_true_eq,
    Prod.Lex.toLex_lt_toLex]
  simp

theorem eqv_eq (ha : a.IsOrdered) (hb : b.IsOrdered) : Number.eqv a b = decide (a.standing = b.standing) := by
  obtain ⟨p, hp⟩ := Option.isSome_iff_exists.1 ha
  obtain ⟨q, hq⟩ := Option.isSome_iff_exists.1 hb
  rw [standing, standing, eqv, hp, hq, Option.getD_some, Option.getD_some, Bool.eq_iff_iff, decide_eq_true_eq,
    EmbeddingLike.apply_eq_iff_eq]
  exact beq_iff_eq

theorem le_int_int (a b : Int) : Number.le (.int a) (.int b) = decide (a ≤ b) := by
  simp [Number.le]

theorem lt_int_int (a b : Int) : Number.lt (.int a) (.int b) = decide (a < b) := by
  simp [Number.lt]

theorem eqv_int_int (a b : Int) : Number.eqv (.int a) (.int b) = decide (a = b) := by
  have : (((0 : Int), (a : Rat)) == (0, (b : Rat))) = decide (a = b) := by
    rw [Bool.eq_iff_iff, beq_iff_eq, Prod.mk.injEq, decide_eq_true_eq, Int.cast_inj]
    simp
  simpa [Number.eqv] using this

/-- equal numbers are in the same place -/
theorem position_eq_of_eqv (h : Number.eqv a b = true) : a.position = b.position := by
  unfold eqv at h
  split at h
  · rename_i p q ha hb
    rw [ha, hb, eq_of_beq h]
  · cases h

/-- equal numbers compare the same -/
theorem le_of_eqv {c d : Number} (h : Number.eqv a b = true) (h' : Number.eqv c d = true) :
    Number.le a c = Number.le b d := by
  rw [le, le, position_eq_of_eqv h, position_eq_of_eqv h']

/-- a number equal to a whole one other than nought is that, or the double of it -/
theorem eq_of_eqv_int {n : Number} {v : Int} (h : Number.eqv n (.int v) = true) (hv : v ≠ 0) :
    n = .int v ∨ n = .double (.finite v) := by
  cases n with
  | int k =>
    rw [eqv_int_int, decide_eq_true_eq] at h
    exact .inl (congrArg Number.int h)
  | double d =>
    cases d with
    | finite q => exact .inr (by simpa [Number.eqv, position, Double.toRat?] using h)
    | negativeZero =>
      have : 0 = (v : Rat) := by simpa [Number.eqv, position, Double.toRat?] using h
      exact (hv (by exact_mod_cast this.symm)).elim
    | infinite negative => cases negative <;> simp [Number.eqv, position] at h
    | nan => simp [Number.eqv, position] at h

end Drumline.Number
