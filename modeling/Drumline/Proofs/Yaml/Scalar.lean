/-
Which scalars have no value, although their tag is one of a truth value or a number: words for no truth value, texts
that are no numbers, and numbers that are too long or too large (`ScalarDefect`). Numbers in base 60 are read in parts,
each of which can be the one to blame.

Main statement: `meets_scalarValue`.
-/
import Drumline.Proofs.Number.Numeral
import Drumline.Proofs.Yaml.Token
import Drumline.Yaml.Document

namespace Drumline.Yaml

/-! ## Model -/

/-- the defects of scalars with a tag, each with what it comes of -/
inductive ScalarDefect (chars : List Char) : Tag → Defect → Prop
  /-- a word for no truth value -/
  | word (h : Tag.truthWords.lookup (String.ofList (Text.lower chars)) = none) :
    ScalarDefect chars .bool (.badTruthValue (String.ofList (Text.lower chars)))
  /-- a whole number of which nothing is left behind its sign -/
  | noNumber (h : (splitSign (chars.filter (· ≠ '_'))).2 = []) : ScalarDefect chars .int .emptyNumber
  /-- a part of a whole number that is no numeral -/
  | noNumeral {base : Nat} {part : List Char} (hpart : part <:+: chars.filter (· ≠ '_'))
    (h : readInteger base (String.ofList part) = .error (.malformed base (String.ofList part))) :
    ScalarDefect chars .int (.badInteger (.malformed base (String.ofList part)))
  /-- a part of a whole number with too many digits -/
  | longNumeral {part : List Char} {digits : Nat} (hpart : part <:+: chars.filter (· ≠ '_'))
    (h : readInteger 10 (String.ofList part) = .error (.tooManyDigits digits)) (hlong : maxDigits < digits) :
    ScalarDefect chars .int (.badInteger (.tooManyDigits digits))
  /-- a fraction of which nothing is left -/
  | noFraction (h : Text.lower (chars.filter (· ≠ '_')) = []) : ScalarDefect chars .float .emptyNumber
  /-- a part of a fraction that is no decimal number -/
  | noDecimal {part : List Char} (hpart : part <:+: Text.lower (chars.filter (· ≠ '_')))
    (h : readDouble? (String.ofList part) = none) : ScalarDefect chars .float (.badDouble (String.ofList part))
  /-- a fraction with so many parts in base 60 that the first counts more units than a double can -/
  | farPlace {place : Nat} {error : ArithmeticError}
    (hplace : place ≤ (Text.lower (chars.filter (· ≠ '_'))).count ':')
    (h : (Number.int ((60 ^ place : Nat) : Int)).toDouble = .error error) :
    ScalarDefect chars .float (.arithmetic error)
  /-- a value of a kind that is not read here -/
  | foreign : ScalarDefect chars .foreign .unsupported

variable {chars : List Char}

theorem meets_mapM {α β : Type} {kind : Defect → Prop} {f : α → Except Error β} {l : List α}
    (h : ∀ a ∈ l, Meets kind (fun _ => True) (f a)) :
    Meets kind (fun l' => l'.length = l.length) (l.mapM f) := by
  induction l with
  | nil => exact .ok rfl
  | cons a l ih =>
    rw [List.mapM_cons]
    refine (h a List.mem_cons_self).bind fun b _ => ?_
    refine (ih fun a' ha' => h a' (List.mem_cons_of_mem a ha')).bind fun l' hl' => ?_
    exact .ok (congrArg (· + 1) hl')

/-! ## Whole numbers -/

theorem meets_readNumeral (base : Nat) {part : List Char} (hpart : part <:+: chars.filter (· ≠ '_')) :
    Meets (ScalarDefect chars .int) (fun _ => True) (readNumeral base part) := by
  unfold readNumeral
  cases hread : readInteger base (String.ofList part) with
  | ok n => exact .ok trivial
  | error e =>
    rcases readInteger_error hread with rfl | ⟨rfl, digits, hlong, rfl⟩
    · exact .defective (.noNumeral hpart hread)
    · exact .defective (.longNumeral hpart hread hlong)

theorem meets_readUnsigned {digits : List Char} (hplace : digits <:+: chars.filter (· ≠ '_'))
    (hnone : digits = [] → (splitSign (chars.filter (· ≠ '_'))).2 = []) :
    Meets (ScalarDefect chars .int) (fun _ => True) (readUnsigned digits) := by
  unfold readUnsigned
  split
  · exact .defective (.noNumber (hnone rfl))
  · exact meets_readNumeral 2 (((List.suffix_cons _ _).trans (List.suffix_cons _ _)).isInfix.trans hplace)
  · exact meets_readNumeral 16 (((List.suffix_cons _ _).trans (List.suffix_cons _ _)).isInfix.trans hplace)
  · exact meets_readNumeral 8 hplace
  · split
    · have hparts := meets_mapM fun part (hpart : part ∈ Text.splitOn ':' digits) =>
        meets_readNumeral 10 ((Text.infix_of_mem_splitOn hpart).trans hplace)
      exact hparts.map fun _ _ => trivial
    · exact meets_readNumeral 10 hplace

theorem meets_readWhole (chars : List Char) : Meets (ScalarDefect chars .int) (fun _ => True) (readWhole chars) :=
  (meets_readUnsigned (splitSign_suffix _).isInfix id).map fun _ _ => trivial

/-! ## Fractions -/

theorem meets_readDecimal {part : List Char} (hpart : part <:+: Text.lower (chars.filter (· ≠ '_'))) :
    Meets (ScalarDefect chars .float) (fun _ => True) (readDecimal part) := by
  unfold readDecimal
  simp only
  cases hread : readDouble? (String.ofList part) with
  | none => exact .defective (.noDecimal hpart hread)
  | some d => exact .ok trivial

theorem meets_sumSixtieths (place : Nat) (sum : Double) (parts : List Double)
    (hplace : place + parts.length ≤ (Text.lower (chars.filter (· ≠ '_'))).count ':' + 1) :
    Meets (ScalarDefect chars .float) (fun _ => True) (sumSixtieths (60 ^ place) sum parts) := by
  induction parts generalizing place sum with
  | nil => exact .ok trivial
  | cons part parts ih =>
    rw [List.length_cons] at hplace
    unfold sumSixtieths
    cases hfactor : (Number.int ((60 ^ place : Nat) : Int)).toDouble with
    | error e => exact .defective (.farPlace (by omega) hfactor)
    | ok factor => exact ih (place + 1) _ (by omega)

theorem meets_readSize {digits : List Char} (hplace : digits <:+ Text.lower (chars.filter (· ≠ '_'))) :
    Meets (ScalarDefect chars .float) (fun _ => True) (readSize digits) := by
  refine .ite (fun _ => .ok trivial) fun _ => .ite (fun _ => .ok trivial) fun _ => .ite (fun _ => ?_) fun _ => ?_
  · have hparts := meets_mapM fun part (hpart : part ∈ Text.splitOn ':' digits) =>
      meets_readDecimal ((Text.infix_of_mem_splitOn hpart).trans hplace.isInfix)
    refine hparts.bind fun parts hlength => meets_sumSixtieths 0 _ _ ?_
    have hcount := hplace.sublist.count_le ':'
    rw [List.length_reverse, hlength, Text.length_splitOn]
    omega
  · exact meets_readDecimal hplace.isInfix

theorem meets_readFraction (chars : List Char) :
    Meets (ScalarDefect chars .float) (fun _ => True) (readFraction chars) := by
  refine .ite (fun hnone => .defective (.noFraction hnone)) fun _ => ?_
  exact (meets_readSize (splitSign_suffix _)).map fun _ _ => trivial

/-! ## All scalars -/

theorem meets_readTruth (chars : List Char) : Meets (ScalarDefect chars .bool) (fun _ => True) (readTruth chars) := by
  unfold readTruth
  simp only
  cases hword : Tag.truthWords.lookup (String.ofList (Text.lower chars)) with
  | none => exact .defective (.word hword)
  | some truth => exact .ok trivial

/-- **Scalars.** Whatever keeps a scalar from having a value is listed, or it has no place in a document. -/
theorem meets_scalarValue (tag : Tag) (chars : List Char) :
    Meets (ScalarDefect chars tag) (fun _ => True) (scalarValue tag chars) := by
  cases tag with
  | null | text => exact .ok trivial
  | bool => exact (meets_readTruth chars).map fun _ _ => trivial
  | int => exact (meets_readWhole chars).map fun _ _ => trivial
  | float => exact (meets_readFraction chars).map fun _ _ => trivial
  | foreign => exact .defective .foreign
  | _ => exact .malformed

end Drumline.Yaml
