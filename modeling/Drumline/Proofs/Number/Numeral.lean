/-
How large a whole number is that is read: its digits are digits of the base (`lt_of_mem_spanDigits`), so it is less than
the power of the base with as many digits, and in base 10 it has no more digits than are written
(`natAbs_lt_of_readInteger`).
-/
import Drumline.Number.Numeral
import Mathlib.Tactic

namespace Drumline

theorem foldl_digits_lt {base : Nat} {digits : List Nat} (h : ∀ d ∈ digits, d < base) (n : Nat) :
    digits.foldl (fun n d => base * n + d) n < (n + 1) * base ^ digits.length := by
  induction digits generalizing n with
  | nil => simp
  | cons d digits ih =>
    have hd : d + 1 ≤ base := h d List.mem_cons_self
    calc (d :: digits).foldl (fun n d => base * n + d) n
        < (base * n + d + 1) * base ^ digits.length := ih (fun d hd => h d (List.mem_cons_of_mem _ hd)) _
      _ ≤ (base * n + base) * base ^ digits.length := Nat.mul_le_mul_right _ (by omega)
      _ = (n + 1) * base ^ (d :: digits).length := by
        rw [List.length_cons, Nat.pow_succ]
        ring

theorem valueOfDigits_lt {base : Nat} {digits : List Nat} (h : ∀ d ∈ digits, d < base) :
    valueOfDigits base digits < base ^ digits.length := by
  simpa [valueOfDigits] using foldl_digits_lt h 0

/-- the digits at the front of a text are what its characters stand for -/
theorem lt_of_mem_spanDigits {digit? : Char → Option Nat} {base : Nat} (hdigit : ∀ c d, digit? c = some d → d < base)
    {text rest : List Char} {digits : List Nat} (h : spanDigits digit? text = some (digits, rest)) :
    ∀ d ∈ digits, d < base := by
  fun_induction spanDigits digit? text generalizing rest digits with
  | case1 =>
    cases h
    simp
  | case2 =>
    cases h
    simp
  | case3 c d hc next rest hnext ih =>
    obtain ⟨⟨ds, r⟩, hspan, hdigits⟩ := Option.map_eq_some_iff.1 h
    cases hdigits
    exact List.forall_mem_cons.2 ⟨hdigit c d hc, ih hspan⟩
  | case4 => cases h
  | case5 => cases h
  | case6 c d hc rest hpair hlone ih =>
    obtain ⟨⟨ds, r⟩, hspan, hdigits⟩ := Option.map_eq_some_iff.1 h
    cases hdigits
    exact List.forall_mem_cons.2 ⟨hdigit c d hc, ih hspan⟩

/-- a whole number that is read in base 10 has no more digits than are written -/
theorem natAbs_lt_of_readInteger {text : String} {n : Int} (h : readInteger 10 text = .ok n) :
    n.natAbs < 10 ^ maxDigits := by
  unfold readInteger at h
  simp only at h
  split at h
  · cases h
  · rename_i digits rest hspan
    have hdigits : ∀ d ∈ digits, d < 10 := by
      refine lt_of_mem_spanDigits ?_ hspan
      intro c d hd
      simpa using (Option.filter_eq_some_iff.1 hd).2
    split_ifs at h with hlong hmalformed hnegative
    all_goals
      have hlength : digits.length ≤ maxDigits := by simpa using hlong
      have hlt : valueOfDigits 10 digits < 10 ^ maxDigits :=
        lt_of_lt_of_le (valueOfDigits_lt hdigits) (Nat.pow_le_pow_right (by omega) hlength)
      cases h
      omega

theorem splitSign_suffix (text : List Char) : (splitSign text).2 <:+ text := by
  unfold splitSign
  split
  · exact List.suffix_cons _ _
  · exact List.suffix_cons _ _
  · exact List.suffix_refl _

theorem readInteger_error {base : Nat} {text : String} {e : NumeralError} (h : readInteger base text = .error e) :
    e = .malformed base text ∨ base = 10 ∧ ∃ digits, maxDigits < digits ∧ e = .tooManyDigits digits := by
  unfold readInteger at h
  simp only at h
  split at h
  · cases h
    exact .inl rfl
  · split_ifs at h with hmany hnone
    · cases h
      exact .inr ⟨hmany.1, _, hmany.2, rfl⟩
    · cases h
      exact .inl rfl

end Drumline
