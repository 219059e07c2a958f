/-
What is written in UTF-8 reads back.

`PartialChar.start?` gives the bounds of the second byte, and these are what a written character keeps: a lemma for each
count of bytes says so. `decodeFrom_owed` and `decodeFrom_last` are one byte inside a character and the last one.

Main result: `decodeFrom_encode`, every text is read again from its bytes, at any position.
-/
import Drumline.Text.Utf8
import Mathlib.Tactic

namespace Drumline.Text

theorem toNat_ofNat_of_lt {n : Nat} (h : n < 256) : (UInt8.ofNat n).toNat = n := by
  simp [Nat.mod_eq_of_lt h]

/-- a continuation byte that is not the last owed one -/
theorem decodeFrom_owed {p : PartialChar} {b : Nat} (position : Nat) (rest : List UInt8) (hb : b < 256)
    (hlow : p.low.toNat ≤ b) (hhigh : b ≤ p.high.toNat) (howed : 2 ≤ p.owed) :
    decodeFrom position (some p) (UInt8.ofNat b :: rest) =
      decodeFrom position
        (some ⟨p.bytes ++ [UInt8.ofNat b], p.owed - 1, 0x80, 0xBF, p.value * 64 + (b - 0x80)⟩) rest := by
  rw [decodeFrom]
  simp only [UInt8.lt_iff_toNat_lt, toNat_ofNat_of_lt hb]
  rw [if_neg (by omega), if_neg (by omega)]

theorem decodeFrom_last {p : PartialChar} {b : Nat} (position : Nat) (rest : List UInt8) (hb : b < 256)
    (hlow : p.low.toNat ≤ b) (hhigh : b ≤ p.high.toNat) (howed : p.owed ≤ 1) :
    decodeFrom position (some p) (UInt8.ofNat b :: rest) =
      (decodeFrom (position + p.bytes.length + 1) none rest).map (Char.ofNat (p.value * 64 + (b - 0x80)) :: ·) := by
  rw [decodeFrom]
  simp only [UInt8.lt_iff_toNat_lt, toNat_ofNat_of_lt hb]
  rw [if_neg (by omega), if_pos howed]

/-- the first byte of a character of several bytes -/
theorem decodeFrom_start {b : Nat} {p : PartialChar} (position : Nat) (rest : List UInt8) (hb : 128 ≤ b) (hb' : b < 256)
    (hp : PartialChar.start? (UInt8.ofNat b) = some p) :
    decodeFrom position none (UInt8.ofNat b :: rest) = decodeFrom position (some p) rest := by
  have hlt : ¬UInt8.ofNat b < 0x80 := by
    simp only [UInt8.lt_iff_toNat_lt, toNat_ofNat_of_lt hb']
    have : (0x80 : UInt8).toNat = 128 := rfl
    omega
  rw [decodeFrom, if_neg hlt, hp]

theorem toNat_valid (c : Char) : c.toNat < 0xD800 ∨ 0xDFFF < c.toNat ∧ c.toNat < 0x110000 := c.valid


theorem start?_two {v : Nat} (hlow : 0x7F < v) (hhigh : v ≤ 0x7FF) :
    PartialChar.start? (UInt8.ofNat (v / 64 % 32 + 0xC0)) =
      some ⟨[UInt8.ofNat (v / 64 % 32 + 0xC0)], 1, 0x80, 0xBF, v / 64⟩ := by
  simp only [PartialChar.start?, toNat_ofNat_of_lt (show v / 64 % 32 + 0xC0 < 256 by omega)]
  rw [if_neg (by omega), if_pos (by omega), show v / 64 % 32 + 0xC0 - 0xC0 = v / 64 by omega]

theorem start?_three {v : Nat} (hlow : 0x7FF < v) (hhigh : v ≤ 0xFFFF) (hv : v < 0xD800 ∨ 0xDFFF < v) :
    ∃ low high : UInt8, PartialChar.start? (UInt8.ofNat (v / 4096 % 16 + 0xE0)) =
        some ⟨[UInt8.ofNat (v / 4096 % 16 + 0xE0)], 2, low, high, v / 4096⟩ ∧
      low.toNat ≤ v / 64 % 64 + 0x80 ∧ v / 64 % 64 + 0x80 ≤ high.toNat := by
  simp only [PartialChar.start?, toNat_ofNat_of_lt (show v / 4096 % 16 + 0xE0 < 256 by omega)]
  rw [if_neg (by omega), if_neg (by omega)]
  split_ifs with h1 h2 h3
  · refine ⟨0xA0, 0xBF, by rw [show v / 4096 = 0 by omega], ?_, ?_⟩
    · show 0xA0 ≤ _; omega
    · show _ ≤ 0xBF; omega
  · refine ⟨0x80, 0x9F, by rw [show v / 4096 = 0xD by omega], ?_, ?_⟩
    · show 0x80 ≤ _; omega
    · show _ ≤ 0x9F; omega
  · refine ⟨0x80, 0xBF, by rw [show v / 4096 % 16 + 0xE0 - 0xE0 = v / 4096 by omega], ?_, ?_⟩
    · show 0x80 ≤ _; omega
    · show _ ≤ 0xBF; omega
  all_goals omega

theorem start?_four {v : Nat} (hlow : 0xFFFF < v) (hhigh : v < 0x110000) :
    ∃ low high : UInt8, PartialChar.start? (UInt8.ofNat (v / 262144 % 8 + 0xF0)) =
        some ⟨[UInt8.ofNat (v / 262144 % 8 + 0xF0)], 3, low, high, v / 262144⟩ ∧
      low.toNat ≤ v / 4096 % 64 + 0x80 ∧ v / 4096 % 64 + 0x80 ≤ high.toNat := by
  simp only [PartialChar.start?, toNat_ofNat_of_lt (show v / 262144 % 8 + 0xF0 < 256 by omega)]
  rw [if_neg (by omega), if_neg (by omega), if_neg (by omega), if_neg (by omega), if_neg (by omega)]
  split_ifs with h1 h2 h3
  · refine ⟨0x90, 0xBF, by rw [show v / 262144 = 0 by omega], ?_, ?_⟩
    · show 0x90 ≤ _; omega
    · show _ ≤ 0xBF; omega
  · refine ⟨0x80, 0xBF, by rw [show v / 262144 % 8 + 0xF0 - 0xF0 = v / 262144 by omega], ?_, ?_⟩
    · show 0x80 ≤ _; omega
    · show _ ≤ 0xBF; omega
  · refine ⟨0x80, 0x8F, by rw [show v / 262144 = 4 by omega], ?_, ?_⟩
    · show 0x80 ≤ _; omega
    · show _ ≤ 0x8F; omega
  all_goals omega

theorem decodeFrom_utf8EncodeChar (c : Char) (position : Nat) (rest : List UInt8) :
    decodeFrom position none (String.utf8EncodeChar c ++ rest) =
      (decodeFrom (position + (String.utf8EncodeChar c).length) none rest).map (c :: ·) := by
  have hv := toNat_valid c
  have hc : c.val.toNat = c.toNat := rfl
  have hlow : (0x80 : UInt8).toNat = 128 := rfl
  have hhigh : (0xBF : UInt8).toNat = 191 := rfl
  unfold String.utf8EncodeChar
  simp only [hc]
  split_ifs with h1 h2 h3
  · have hlt : UInt8.ofNat c.toNat < 0x80 := by
      simp only [UInt8.lt_iff_toNat_lt, toNat_ofNat_of_lt (show c.toNat < 256 by omega)]
      omega
    simp only [List.cons_append, List.nil_append, decodeFrom, if_pos hlt, List.length_singleton,
      toNat_ofNat_of_lt (show c.toNat < 256 by omega), Char.ofNat_toNat]
  · simp only [List.cons_append, List.nil_append]
    rw [decodeFrom_start _ _ (by omega) (by omega) (start?_two (by omega) (by omega)),
      decodeFrom_last _ _ (by omega) (by simp only; omega) (by simp only; omega) (by simp only; omega)]
    simp only
    rw [show c.toNat / 64 * 64 + (c.toNat % 64 + 128 - 0x80) = c.toNat by omega, Char.ofNat_toNat]
    rfl
  · obtain ⟨low, high, hs, hl, hh⟩ := start?_three (v := c.toNat) (by omega) (by omega) (by omega)
    simp only [List.cons_append, List.nil_append]
    rw [decodeFrom_start _ _ (by omega) (by omega) hs,
      decodeFrom_owed _ _ (by omega) (by simp only; omega) (by simp only; omega) (by simp only; omega),
      decodeFrom_last _ _ (by omega) (by simp only; omega) (by simp only; omega) (by simp only; omega)]
    simp only
    rw [show (c.toNat / 4096 * 64 + (c.toNat / 64 % 64 + 128 - 0x80)) * 64 + (c.toNat % 64 + 128 - 0x80) = c.toNat by
      omega, Char.ofNat_toNat]
    rfl
  · obtain ⟨low, high, hs, hl, hh⟩ := start?_four (v := c.toNat) (by omega) (by omega)
    simp only [List.cons_append, List.nil_append]
    rw [decodeFrom_start _ _ (by omega) (by omega) hs,
      decodeFrom_owed _ _ (by omega) (by simp only; omega) (by simp only; omega) (by simp only; omega),
      decodeFrom_owed _ _ (by omega) (by simp only; omega) (by simp only; omega) (by simp only; omega),
      decodeFrom_last _ _ (by omega) (by simp only; omega) (by simp only; omega) (by simp only; omega)]
    simp only
    rw [show ((c.toNat / 262144 * 64 + (c.toNat / 4096 % 64 + 128 - 0x80)) * 64 + (c.toNat / 64 % 64 + 128 - 0x80)) * 64
      + (c.toNat % 64 + 128 - 0x80) = c.toNat by omega, Char.ofNat_toNat]
    rfl

theorem length_encode_pos {text : List Char} (h : text ≠ []) : 1 ≤ (encode text).length := by
  obtain ⟨c, rest, rfl⟩ := List.exists_cons_of_ne_nil h
  rw [encode, List.flatMap_cons, List.length_append, String.length_utf8EncodeChar]
  exact Nat.le_add_right_of_le c.utf8Size_pos

theorem encode_append (text text' : List Char) : encode (text ++ text') = encode text ++ encode text' :=
  List.flatMap_append

theorem decodeFrom_encode (text : List Char) (position : Nat) : decodeFrom position none (encode text) = .ok text := by
  induction text generalizing position with
  | nil => rfl
  | cons c text ih =>
    rw [encode, List.flatMap_cons, decodeFrom_utf8EncodeChar, ← encode, ih]
    rfl

end Drumline.Text
