/-
What the key of a pattern line stands for: `Key.isAccent`, `Key.isNumeral` and `Key.Names` say it without reading digit
by digit, and the lemmas about `resolveNote` say that reading agrees with them. A whole number is written as a numeral
that stands for it (`resolveNote_toString`), which is neither a drum name nor the key of the accent line.
-/
import Drumline.Pattern.Format
import Drumline.Pattern.Parse
import Mathlib.Tactic

namespace Drumline

/-! ## Model -/

namespace Key

/-- whether a key is that of the accent line, in any case -/
def isAccent (key : List Char) : Bool := Text.isWord accentKey key

/-- whether a key is a row of the digits 0 to 9, perhaps behind a sign -/
def isNumeral : List Char → Bool
  | '+' :: digits | '-' :: digits | digits => digits ≠ [] && digits.all Char.isDigit

def value : List Char → Int
  | '-' :: digits => -(Nat.ofDigitChars 10 digits 0 : Int)
  | '+' :: digits | digits => (Nat.ofDigitChars 10 digits 0 : Int)

/-- whether a key is the name of a drum, in any case, or a numeral -/
def isNote (key : List Char) : Bool :=
  Drum.all.any (fun drum => Text.isWord drum.name key) || isNumeral key

/-- the note that a key stands for -/
inductive Names : List Char → Int → Prop
  | drum {key : List Char} (drum : Drum) (h : Text.isWord drum.name key = true) : Names key drum.note
  | numeral {key : List Char} (h : isNumeral key = true) : Names key (value key)

end Key

/-! ## Digits -/

theorem asciiDigit?_of_isDigit {c : Char} (h : c.isDigit = true) : Text.asciiDigit? c = some (c.toNat - '0'.toNat) := by
  rw [Char.isDigit_iff_toNat] at h
  rw [Text.asciiDigit?, if_pos]
  rw [Char.le_def, Char.le_def, UInt32.le_iff_toNat_le, UInt32.le_iff_toNat_le]
  exact h

theorem asciiDigit?_of_not_isDigit {c : Char} (h : c.isDigit = false) : Text.asciiDigit? c = none := by
  rw [Text.asciiDigit?, if_neg]
  intro hle
  rw [Char.le_def, Char.le_def, UInt32.le_iff_toNat_le, UInt32.le_iff_toNat_le] at hle
  rw [Char.isDigit_iff_toNat.2 hle] at h
  cases h

theorem mapM_asciiDigit? (digits : List Char) :
    digits.mapM Text.asciiDigit? =
      if digits.all Char.isDigit then some (digits.map fun c => c.toNat - '0'.toNat) else none := by
  induction digits with
  | nil => rfl
  | cons c digits ih =>
    rw [List.mapM_cons, ih, List.all_cons]
    cases hc : c.isDigit with
    | false =>
      rw [asciiDigit?_of_not_isDigit hc, Bool.false_and, if_neg Bool.false_ne_true]
      rfl
    | true =>
      rw [asciiDigit?_of_isDigit hc, Bool.true_and]
      cases digits.all Char.isDigit <;> rfl

theorem valueOfDigits_map (digits : List Char) :
    valueOfDigits 10 (digits.map fun c => c.toNat - '0'.toNat) = Nat.ofDigitChars 10 digits 0 := by
  rw [valueOfDigits, List.foldl_map, Nat.ofDigitChars_eq_foldl]

theorem ofDigitChars_lt {digits : List Char} (h : digits.all Char.isDigit = true) :
    Nat.ofDigitChars 10 digits 0 < 10 ^ digits.length := by
  induction digits with
  | nil => decide
  | cons c digits ih =>
    rw [List.all_cons, Bool.and_eq_true, Char.isDigit_iff_toNat] at h
    have htail := ih h.2
    have hc : c.toNat - '0'.toNat ≤ 9 := by
      have : c.toNat ≤ '0'.toNat + 9 := h.1.2
      omega
    have hhead : 10 ^ digits.length * (c.toNat - '0'.toNat) ≤ 10 ^ digits.length * 9 := Nat.mul_le_mul_left _ hc
    rw [Nat.ofDigitChars_cons, Nat.ofDigitChars_eq_ofDigitChars_zero, List.length_cons, Nat.pow_succ, Nat.mul_zero,
      Nat.zero_add]
    omega

namespace Key

variable {key : List Char}

theorem isNumeral_eq (key : List Char) :
    isNumeral key = ((splitSign key).2 ≠ [] && (splitSign key).2.all Char.isDigit) := by
  unfold isNumeral
  split
  · rfl
  · rfl
  · rename_i hplus hminus
    rw [splitSign.eq_3 key (fun rest h => hminus rest h) (fun rest h => hplus rest h)]

theorem value_eq (key : List Char) :
    value key = if (splitSign key).1 then -(Nat.ofDigitChars 10 (splitSign key).2 0 : Int)
      else Nat.ofDigitChars 10 (splitSign key).2 0 := by
  unfold value
  split
  · rfl
  · rfl
  · rename_i hminus hplus
    rw [splitSign.eq_3 key (fun rest h => hminus rest h) (fun rest h => hplus rest h)]
    rfl

/-- plain digits are found in the numerals, and their value is that of the numeral -/
theorem plainDigits?_eq (key : List Char) :
    plainDigits? key = if isNumeral key then
      some ((splitSign key).1, (splitSign key).2.map fun c => c.toNat - '0'.toNat) else none := by
  rw [isNumeral_eq]
  unfold plainDigits?
  generalize splitSign key = parts
  obtain ⟨negative, digits⟩ := parts
  simp only [mapM_asciiDigit?]
  cases digits with
  | nil => rfl
  | cons c digits =>
    cases h : (c :: digits).all Char.isDigit with
    | true => rfl
    | false => rfl

end Key

/-! ## Notes -/

/-- the note of a numeral that is no name of a drum -/
theorem resolveNote_of_ofKey?_eq_none {key : List Char} (h : Drum.ofKey? key = none) :
    resolveNote key = if Key.isNumeral key then
        if maxDigits < (splitSign key).2.length then .error (.unreadable (.tooManyDigits (splitSign key).2.length))
        else .ok (Key.value key)
      else .error (.unknown (String.ofList key)) := by
  unfold resolveNote
  rw [h, Key.plainDigits?_eq, Key.value_eq]
  cases Key.isNumeral key with
  | false => rfl
  | true =>
    simp only [if_true, List.length_map, valueOfDigits_map]

theorem Drum.isWord_of_ofKey? {key : List Char} {drum : Drum} (h : Drum.ofKey? key = some drum) :
    Text.isWord drum.name key = true := by
  unfold Drum.ofKey? at h
  have hfound := List.find?_some h
  exact hfound

theorem Drum.any_isWord (key : List Char) :
    Drum.all.any (fun drum => Text.isWord drum.name key) = (Drum.ofKey? key).isSome := by
  rw [Drum.ofKey?, List.isSome_find?]

/-- a key that is resolved names its note, and the note has no more digits than are read -/
theorem names_of_resolveNote {key : List Char} {note : Int} (h : resolveNote key = .ok note) :
    Key.Names key note ∧ note.natAbs < 10 ^ maxDigits := by
  cases hdrum : Drum.ofKey? key with
  | some drum =>
    unfold resolveNote at h
    rw [hdrum] at h
    cases h
    have hnote := drum.note_lt
    have hpow : 10 ^ 3 ≤ 10 ^ maxDigits := Nat.pow_le_pow_right (by omega) (by decide)
    exact ⟨.drum drum (Drum.isWord_of_ofKey? hdrum), by omega⟩
  | none =>
    rw [resolveNote_of_ofKey?_eq_none hdrum] at h
    split_ifs at h with hnumeral hlong
    cases h
    have hdigits := hnumeral
    rw [Key.isNumeral_eq, Bool.and_eq_true] at hdigits
    have hlt := ofDigitChars_lt hdigits.2
    have hpow : 10 ^ (splitSign key).2.length ≤ 10 ^ maxDigits := Nat.pow_le_pow_right (by omega) (not_lt.1 hlong)
    refine ⟨.numeral hnumeral, ?_⟩
    rw [Key.value_eq]
    split <;> omega

/-- a key is unknown if it is no name and no numeral -/
theorem isNote_of_resolveNote {key : List Char} {text : String} (h : resolveNote key = .error (.unknown text)) :
    Key.isNote key = false ∧ text = String.ofList key := by
  cases hdrum : Drum.ofKey? key with
  | some drum =>
    unfold resolveNote at h
    rw [hdrum] at h
    cases h
  | none =>
    rw [resolveNote_of_ofKey?_eq_none hdrum] at h
    split_ifs at h with hnumeral hlong
    · cases h
    · have htext := KeyError.unknown.inj (Except.error.inj h)
      rw [Key.isNote, Drum.any_isWord, hdrum, Bool.eq_false_iff.2 hnumeral]
      exact ⟨rfl, htext.symm⟩

theorem Key.Names.isNote {key : List Char} {note : Int} (h : Key.Names key note) : Key.isNote key = true := by
  rw [Key.isNote, Bool.or_eq_true]
  cases h with
  | drum drum h => exact .inl (List.any_eq_true.2 ⟨drum, drum.mem_all, h⟩)
  | numeral h => exact .inr h

/-! ## Written numbers -/

theorem isWord_of_isDigit {word : String} {key : List Char} (hword : word.toList.all (65 ≤ ·.toNat) = true)
    (hne : key ≠ []) (hkey : ∀ c ∈ key, c.toNat < 58) : Text.isWord word key = false := by
  have hupper (c : Char) (hc : c ∈ key) : Text.upperAscii c = [c] := by
    have hlt := hkey c hc
    have hsame : c.toUpper = c := by
      refine dif_neg ?_
      rw [UInt32.le_iff_toNat_le, UInt32.le_iff_toNat_le]
      intro hlower
      have : 97 ≤ c.toNat := hlower.1
      omega
    rw [Text.upperAscii_of_lt (by omega), hsame]
  have hmap : key.flatMap Text.upperAscii = key := by
    rw [List.flatMap_congr hupper, List.flatMap_singleton']
  rw [Text.isWord, hmap, beq_eq_false_iff_ne]
  rintro rfl
  obtain ⟨c, hc⟩ := List.exists_mem_of_ne_nil _ hne
  have := hkey c hc
  have := of_decide_eq_true (List.all_eq_true.1 hword c hc)
  omega

theorem Drum.all_name (drum : Drum) : drum.name.toList.all (65 ≤ ·.toNat) = true := by
  cases drum <;> decide

namespace Key

variable {key : List Char}

theorem toNat_lt_of_isDigit {c : Char} (h : c.isDigit = true) : c.toNat < 58 := by
  rw [Char.isDigit_iff_toNat] at h
  have hhigh : c.toNat ≤ 57 := h.2
  omega

/-- numerals are written with signs and digits -/
theorem toNat_lt_of_isNumeral (h : isNumeral key = true) : key ≠ [] ∧ ∀ c ∈ key, c.toNat < 58 := by
  unfold isNumeral at h
  split at h
  all_goals rw [Bool.and_eq_true, decide_eq_true_eq, List.all_eq_true] at h
  · refine ⟨List.cons_ne_nil _ _, fun c hc => ?_⟩
    rcases List.mem_cons.1 hc with rfl | hc
    · decide
    · exact toNat_lt_of_isDigit (h.2 c hc)
  · refine ⟨List.cons_ne_nil _ _, fun c hc => ?_⟩
    rcases List.mem_cons.1 hc with rfl | hc
    · decide
    · exact toNat_lt_of_isDigit (h.2 c hc)
  · exact ⟨h.1, fun c hc => toNat_lt_of_isDigit (h.2 c hc)⟩

theorem isAccent_of_isNumeral (h : isNumeral key = true) : isAccent key = false ∧ Drum.ofKey? key = none := by
  obtain ⟨hne, hlt⟩ := toNat_lt_of_isNumeral h
  refine ⟨isWord_of_isDigit (by decide) hne hlt, ?_⟩
  rw [Drum.ofKey?, List.find?_eq_none]
  intro drum _
  rw [isWord_of_isDigit drum.all_name hne hlt]
  exact Bool.false_ne_true

end Key

theorem toList_toString (n : Int) :
    (toString n).toList = if 0 ≤ n then Nat.toDigits 10 n.natAbs else '-' :: Nat.toDigits 10 n.natAbs := by
  rw [Int.toString_eq_repr, Int.repr_eq_if]
  split
  · have habs : n.toNat = n.natAbs := by omega
    rw [Nat.toList_repr, habs]
  · have habs : (-n).toNat = n.natAbs := by omega
    rw [String.toList_append, Nat.toList_repr, habs]
    rfl

theorem isDigit_of_mem_toDigits {n : Nat} {c : Char} (h : c ∈ Nat.toDigits 10 n) : c.isDigit = true :=
  Nat.isDigit_of_mem_toDigits (by omega) le_rfl h

/-- what a whole number is written with: a minus, perhaps, and digits -/
theorem mem_toString {n : Int} {c : Char} (h : c ∈ (toString n).toList) : c = '-' ∨ c.isDigit = true := by
  rw [toList_toString] at h
  split at h
  · exact .inr (isDigit_of_mem_toDigits h)
  · rcases List.mem_cons.1 h with rfl | h
    · exact .inl rfl
    · exact .inr (isDigit_of_mem_toDigits h)

theorem toNat_lt_of_mem_toString {n : Int} {c : Char} (h : c ∈ (toString n).toList) : 45 ≤ c.toNat ∧ c.toNat < 58 := by
  rcases mem_toString h with rfl | h
  · decide
  · rw [Char.isDigit_iff_toNat] at h
    have hlow : 48 ≤ c.toNat := h.1
    have hhigh : c.toNat ≤ 57 := h.2
    omega

theorem toString_ne_nil (n : Int) : (toString n).toList ≠ [] := by
  rw [toList_toString]
  split
  · exact Nat.toDigits_ne_nil
  · exact List.cons_ne_nil _ _

/-- the sign and the digits of a written number -/
theorem splitSign_toString (n : Int) : splitSign (toString n).toList = (decide (n < 0), Nat.toDigits 10 n.natAbs) := by
  rw [toList_toString]
  split
  · have hdigit (c : Char) (hc : c.isDigit = false) (rest : List Char) : Nat.toDigits 10 n.natAbs ≠ c :: rest := by
      intro h
      have hmem : c ∈ Nat.toDigits 10 n.natAbs := h ▸ List.mem_cons_self
      rw [isDigit_of_mem_toDigits hmem] at hc
      cases hc
    rw [splitSign.eq_3 _ (fun rest h => hdigit '-' rfl rest h) (fun rest h => hdigit '+' rfl rest h),
      decide_eq_false (by omega)]
  · rw [decide_eq_true (by omega)]
    rfl

theorem isNumeral_toString (n : Int) : Key.isNumeral (toString n).toList = true := by
  have hdigits : (Nat.toDigits 10 n.natAbs).all Char.isDigit = true :=
    List.all_eq_true.2 fun c hc => isDigit_of_mem_toDigits hc
  rw [Key.isNumeral_eq, splitSign_toString, hdigits, Bool.and_true]
  exact decide_eq_true Nat.toDigits_ne_nil

theorem resolveNote_toString {n : Int} (h : n.natAbs < 10 ^ maxDigits) :
    resolveNote (toString n).toList = .ok n := by
  have hnumeral := isNumeral_toString n
  have hlength : ¬maxDigits < (Nat.toDigits 10 n.natAbs).length :=
    not_lt.2 ((Nat.length_toDigits_le_iff (by omega) (by decide)).2 h)
  have hvalue : Key.value (toString n).toList = n := by
    rw [Key.value_eq, splitSign_toString, Nat.ofDigitChars_ten_toDigits]
    simp only [decide_eq_true_eq]
    split <;> omega
  have hdrum := (Key.isAccent_of_isNumeral hnumeral).2
  rw [resolveNote_of_ofKey?_eq_none hdrum, if_pos hnumeral, splitSign_toString, if_neg hlength, hvalue]

/-- a whole number is written if it has no more digits than are read -/
theorem writeInteger_eq_ok {n : Int} {text : String} :
    writeInteger n = .ok text ↔ n.natAbs < 10 ^ maxDigits ∧ text = toString n := by
  have hlength : (toString n.natAbs).length ≤ maxDigits ↔ n.natAbs < 10 ^ maxDigits := by
    rw [← String.length_toList, Nat.toString_eq_repr, Nat.toList_repr,
      Nat.length_toDigits_le_iff (by omega) (by decide)]
  rw [writeInteger]
  constructor
  · intro h
    split_ifs at h with hle
    cases h
    exact ⟨hlength.1 hle, rfl⟩
  · rintro ⟨h, rfl⟩
    rw [if_pos (hlength.2 h)]

end Drumline
