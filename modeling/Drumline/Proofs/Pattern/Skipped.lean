/-
What becomes of lines that cannot be read. A line whose key is neither that of the accent line, nor a drum, nor a
numeral is skipped with a warning, and the lines around it are read as if it were not there (`mapM_entry?_filter`). A
numeral with more digits than are read is different: it stops the reader, and nothing of the text is read.

`entry?_of_oversized` and `exists_entry?` say which of the two happens to a line. By induction over the lines, the first
one that is oversized is the error of the whole (`mapM_entry?_eq_error`), and the warnings are those of the lines before
it (`readLines_fst`).

Main result: `parse_skips`.
-/
import Drumline.Proofs.Pattern.Grammar
import Drumline.Proofs.Text.Lines

namespace Drumline

/-! ## Model -/

/-- how many digits a numeral has -/
def Key.digitCount (key : List Char) : Nat := (splitSign key).2.length

/-- whether a key is a numeral with more digits than are read -/
def Key.isOversized (key : List Char) : Bool := isNumeral key && maxDigits < digitCount key

def KeyedLine.isOversized (line : KeyedLine) : Bool := Key.isOversized line.key

/-- a line that is skipped, as the reader reports it -/
def KeyedLine.skipped (line : KeyedLine) : SkippedLine := ⟨line.number, String.ofList line.key⟩

/-! ## Keys -/

/-- a key is too long to be read only if it is an oversized numeral -/
theorem isOversized_of_resolveNote {key : List Char} {e : NumeralError} (h : resolveNote key = .error (.unreadable e)) :
    Key.isOversized key = true := by
  cases hdrum : Drum.ofKey? key with
  | some drum =>
    unfold resolveNote at h
    rw [hdrum] at h
    cases h
  | none =>
    rw [resolveNote_of_ofKey?_eq_none hdrum] at h
    split_ifs at h with hnumeral hlong
    · rw [Key.isOversized, hnumeral, Bool.true_and]
      exact decide_eq_true hlong
    · cases h

/-! ## Lines -/

namespace KeyedLine

variable {line : KeyedLine}

/-- an oversized line has no entry, and is not skipped either -/
theorem entry?_of_oversized (h : line.isOversized = true) :
    line.entry? = .error (.tooManyDigits (Key.digitCount line.key)) := by
  rw [isOversized, Key.isOversized, Bool.and_eq_true, decide_eq_true_eq] at h
  obtain ⟨haccent, hdrum⟩ := Key.isAccent_of_isNumeral h.1
  have hnote : resolveNote line.key = .error (.unreadable (.tooManyDigits (Key.digitCount line.key))) := by
    have hlong : maxDigits < (splitSign line.key).2.length := h.2
    rw [resolveNote_of_ofKey?_eq_none hdrum, if_pos h.1, if_pos hlong]
    rfl
  unfold entry?
  rw [isAccent, haccent, if_neg Bool.false_ne_true, hnote]

/-- any other line has an entry or is skipped -/
theorem exists_entry? (h : line.isOversized = false) : ∃ entry, line.entry? = .ok entry := by
  unfold entry?
  split
  · exact ⟨_, rfl⟩
  · split
    · exact ⟨_, rfl⟩
    · exact ⟨_, rfl⟩
    · rename_i hnote
      rw [isOversized, isOversized_of_resolveNote hnote] at h
      cases h

theorem isOversized_of_entry? {entry : Option Entry} (h : line.entry? = .ok entry) : line.isOversized = false := by
  by_contra hbig
  rw [entry?_of_oversized (Bool.eq_true_of_not_eq_false hbig)] at h
  cases h

/-- an oversized line counts -/
theorem isAccepted_of_oversized (h : line.isOversized = true) : line.isAccepted = true := by
  rw [isOversized, Key.isOversized, Bool.and_eq_true] at h
  rw [isAccepted, Key.isNote, h.1, Bool.or_true, Bool.or_true]

/-- a line that does not count is skipped -/
theorem entry?_of_not_accepted (h : line.isAccepted = false) : line.entry? = .ok none := by
  have hsmall : line.isOversized = false := by
    by_contra hbig
    rw [isAccepted_of_oversized (Bool.eq_true_of_not_eq_false hbig)] at h
    cases h
  obtain ⟨entry, hentry⟩ := exists_entry? hsmall
  rw [isAccepted, Bool.or_eq_false_iff] at h
  unfold entry? at hentry ⊢
  rw [isAccent, h.1, if_neg Bool.false_ne_true] at hentry ⊢
  cases hnote : resolveNote line.key with
  | ok note =>
    rw [(names_of_resolveNote hnote).1.isNote] at h
    cases h.2
  | error error =>
    cases error with
    | unknown key => rfl
    | unreadable error => rw [hnote] at hentry; cases hentry

end KeyedLine

/-- lines that do not count leave what is read as it is -/
theorem mapM_entry?_filter (lines : List KeyedLine) :
    (lines.mapM KeyedLine.entry?).map (·.filterMap id) =
      ((lines.filter (·.isAccepted)).mapM KeyedLine.entry?).map (·.filterMap id) := by
  induction lines with
  | nil => rfl
  | cons line lines ih =>
    cases haccepted : line.isAccepted with
    | false =>
      rw [List.filter_cons_of_neg (by rw [haccepted]; exact Bool.false_ne_true), ← ih, List.mapM_cons,
        KeyedLine.entry?_of_not_accepted haccepted]
      cases lines.mapM KeyedLine.entry? <;> rfl
    | true =>
      rw [List.filter_cons_of_pos haccepted, List.mapM_cons, List.mapM_cons, map_bind, map_bind]
      refine bind_congr_of_ok fun entry _ => ?_
      have hrest (result : Except NumeralError (List (Option Entry))) :
          (result >>= fun entries => pure (entry :: entries)).map (·.filterMap id) =
            (result.map (·.filterMap id)).map (entry.toList ++ ·) := by
        cases result with
        | error e => rfl
        | ok entries => cases entry <;> rfl
      rw [hrest, hrest, ih]

/-- the first line that is oversized is the error of them all -/
theorem mapM_entry?_eq_error {lines : List KeyedLine} {e : NumeralError} :
    lines.mapM KeyedLine.entry? = .error e ↔
      ∃ line, lines.find? (·.isOversized) = some line ∧ e = .tooManyDigits (Key.digitCount line.key) := by
  induction lines with
  | nil => simp [pure, Except.pure]
  | cons line lines ih =>
    rw [List.mapM_cons]
    cases hbig : line.isOversized with
    | true =>
      rw [List.find?_cons_of_pos hbig, bind_of_error (KeyedLine.entry?_of_oversized hbig)]
      simp [eq_comm]
    | false =>
      obtain ⟨entry, hentry⟩ := KeyedLine.exists_entry? hbig
      rw [List.find?_cons_of_neg (by rw [hbig]; exact Bool.false_ne_true), bind_of_ok hentry, ← ih, bind_eq_error]
      simp [pure, Except.pure]

/-- the lines before the first that is oversized are warned of if they do not count -/
theorem readLines_fst (number : Nat) (lines : List (List Char)) :
    (readLines number lines).1 =
      (((keyedFrom number lines).takeWhile (!·.isOversized)).filter (!·.isAccepted)).map KeyedLine.skipped := by
  induction lines generalizing number with
  | nil => rfl
  | cons line lines ih =>
    rw [keyedFrom_cons]
    unfold readLines
    rcases readLine_cases number line with ⟨hkeyed, hline⟩ | ⟨keyed, hkeyed, ⟨entry, hof, hentry, hline⟩ |
        ⟨hrejected, hentry, hline⟩ | ⟨error, hentry, hline⟩⟩
    · rw [hline, hkeyed]
      exact ih (number + 1)
    · have hsmall := KeyedLine.isOversized_of_entry? hentry
      rw [hline, hkeyed, Option.toList_some, List.singleton_append,
        List.takeWhile_cons_of_pos (by rw [hsmall]; rfl),
        List.filter_cons_of_neg (by rw [hof.isAccepted]; exact Bool.false_ne_true)]
      exact ih (number + 1)
    · have hsmall := KeyedLine.isOversized_of_entry? hentry
      rw [hline, hkeyed, Option.toList_some, List.singleton_append,
        List.takeWhile_cons_of_pos (by rw [hsmall]; rfl),
        List.filter_cons_of_pos (by rw [hrejected]; rfl), List.map_cons, ← ih (number + 1), KeyedLine.skipped,
        KeyedLine.number_of_ofLine? hkeyed]
    · have hbig : keyed.isOversized = true := by
        by_contra hsmall
        obtain ⟨entry, hok⟩ := KeyedLine.exists_entry? (Bool.eq_false_iff.2 hsmall)
        rw [hok] at hentry
        cases hentry
      rw [hline, hkeyed, Option.toList_some, List.singleton_append,
        List.takeWhile_cons_of_neg (by rw [hbig]; exact Bool.false_ne_true)]
      rfl

/-! ## Texts -/

namespace Pattern

/-- **Errors.** Reading a text fails at its first line that is oversized, and not otherwise. -/
theorem result_eq_error {content : List Char} {e : NumeralError} : (parse content).result = .error e ↔
    ∃ line, (keyedLines content).find? (·.isOversized) = some line ∧ e = .tooManyDigits (Key.digitCount line.key) := by
  rw [result_eq, map_eq_error, map_eq_error, mapM_entry?_eq_error]

theorem exists_result_iff {content : List Char} :
    (∃ p, (parse content).result = .ok p) ↔ ∀ line ∈ keyedLines content, line.isOversized = false := by
  have hnone : (keyedLines content).find? (·.isOversized) = none ↔
      ∀ line ∈ keyedLines content, line.isOversized = false := by
    simp
  rw [← hnone]
  cases hresult : (parse content).result with
  | ok p =>
    refine iff_of_true ⟨p, rfl⟩ (Option.eq_none_iff_forall_not_mem.2 fun line hline => ?_)
    have herror := result_eq_error.2 ⟨line, hline, rfl⟩
    rw [hresult] at herror
    cases herror
  | error e =>
    obtain ⟨line, hline, -⟩ := result_eq_error.1 hresult
    rw [hline]
    exact iff_of_false (fun ⟨_, h⟩ => by cases h) (fun h => by cases h)

/-- **Lines that do not count.** Texts whose lines that count have the same words are read alike. -/
theorem result_congr {content other : List Char}
    (h : (acceptedLines other).map (fun line => (line.key, line.steps)) =
      (acceptedLines content).map fun line => (line.key, line.steps)) :
    (parse other).result = (parse content).result := by
  have hentries : (acceptedLines other).mapM KeyedLine.entry? = (acceptedLines content).mapM KeyedLine.entry? :=
    mapM_entry?_congr h
  rw [acceptedLines, acceptedLines] at hentries
  rw [result_eq, result_eq, mapM_entry?_filter, hentries, ← mapM_entry?_filter]

end Pattern

/-- **Lines that are skipped.** A text is read unless the key of some line is a numeral with more digits than are read.
The first such line is what reading fails at. Up to it, or else up to the end, every line of two words whose key is
neither that of the accent line nor a note is warned of, once and in order, and there are no other warnings. Such lines
do not influence what is read: texts that have the same words on the lines that count are read alike. -/
theorem parse_skips (content : List Char) (source : String) :
    ((∃ p, (Pattern.parse content).result = .ok p) ↔ ∀ line ∈ keyedLines content, line.isOversized = false) ∧
    (∀ e, (Pattern.parse content).result = .error e ↔ ∃ line, (keyedLines content).find? (·.isOversized) = some line ∧
      e = .tooManyDigits (Key.digitCount line.key)) ∧
    Notice.ofSkipped source (Pattern.parse content).skipped =
      (((keyedLines content).takeWhile (!·.isOversized)).filter (!·.isAccepted)).map (KeyedLine.warning source) ∧
    ∀ other, (acceptedLines other).map (fun line => (line.key, line.steps)) =
        (acceptedLines content).map (fun line => (line.key, line.steps)) →
      (Pattern.parse other).result = (Pattern.parse content).result := by
  refine ⟨Pattern.exists_result_iff, fun e => Pattern.result_eq_error, ?_, fun other => Pattern.result_congr⟩
  have hskipped : (Pattern.parse content).skipped = _ := readLines_fst 1 (Text.splitLines content)
  rw [hskipped, Notice.ofSkipped, List.map_map]
  rfl

/-- a line with an unknown drum is as good as none -/
theorem parse_skips_unknown :
    (Pattern.parse "SD x-x\nac -x".toList).result = (Pattern.parse "SD x-x\nXX x\nac -x".toList).result ∧
      Notice.ofSkipped "a.pat" (Pattern.parse "SD x-x\nXX x\nac -x".toList).skipped =
        [.lineSkipped "a.pat" ⟨2, "XX"⟩] := by
  have hwords : (acceptedLines "SD x-x\nac -x".toList).map (fun line => (line.key, line.steps)) =
      (acceptedLines "SD x-x\nXX x\nac -x".toList).map fun line => (line.key, line.steps) := by
    decide +kernel
  obtain ⟨-, -, hwarnings, hcongr⟩ := parse_skips "SD x-x\nXX x\nac -x".toList "a.pat"
  refine ⟨hcongr _ hwords, hwarnings.trans ?_⟩
  decide +kernel

/-! ## A numeral that is not read -/

/-- a bass drum, and a line whose key has a number of digits -/
def numbered (digits : Nat) : List Char :=
  ["BD x---".toList, List.replicate digits '1' ++ ' ' :: "x---".toList].flatMap (· ++ ['\n'])

variable {digits : Nat}

theorem isOversized_replicate (h : maxDigits < digits) :
    Key.isOversized (List.replicate digits '1') = true ∧ Key.digitCount (List.replicate digits '1') = digits := by
  obtain ⟨n, rfl⟩ := Nat.exists_eq_succ_of_ne_zero (Nat.ne_zero_of_lt h)
  have hsplit : splitSign (List.replicate (n + 1) '1') = (false, List.replicate (n + 1) '1') := rfl
  have hdigits : (List.replicate (n + 1) '1').all Char.isDigit = true := by
    rw [List.all_eq_true]
    intro c hc
    rw [List.eq_of_mem_replicate hc]
    decide
  have hnumeral : Key.isNumeral (List.replicate (n + 1) '1') = true := by
    rw [Key.isNumeral_eq, hsplit, hdigits, Bool.and_true]
    exact decide_eq_true (List.cons_ne_nil _ _)
  have hcount : Key.digitCount (List.replicate (n + 1) '1') = n + 1 := by
    rw [Key.digitCount, hsplit, List.length_replicate]
  rw [Key.isOversized, hnumeral, hcount, Bool.true_and]
  exact ⟨decide_eq_true h, rfl⟩

theorem splitLines_numbered (digits : Nat) :
    Text.splitLines (numbered digits) = ["BD x---".toList, List.replicate digits '1' ++ ' ' :: "x---".toList] := by
  have hfirst : "BD x---".toList.any Text.isLineBreak = false := rfl
  have hsteps : (' ' :: "x---".toList).any Text.isLineBreak = false := rfl
  refine Text.splitLines_flatMap fun line hline c hc => ?_
  rcases List.mem_pair.1 hline with rfl | rfl
  · exact Bool.eq_false_iff.2 (List.any_eq_false.1 hfirst c hc)
  · rcases List.mem_append.1 hc with hc | hc
    · rw [List.eq_of_mem_replicate hc]
      decide
    · exact Bool.eq_false_iff.2 (List.any_eq_false.1 hsteps c hc)

theorem keyedLines_numbered (h : digits ≠ 0) : keyedLines (numbered digits) =
    [⟨1, "BD".toList, "x---".toList⟩, ⟨2, List.replicate digits '1', "x---".toList⟩] := by
  have hdigit (c : Char) (hc : c ∈ List.replicate digits '1') : Text.isBlank c = false := by
    rw [List.eq_of_mem_replicate hc]
    decide
  have hsteps : "x---".toList.any Text.isBlank = false := rfl
  have hwords := Text.splitBlanks_pair (mt (List.replicate_eq_nil_iff '1').1 h) (by decide) hdigit
    fun c hc => Bool.eq_false_iff.2 (List.any_eq_false.1 hsteps c hc)
  have hofLine : KeyedLine.ofLine? 2 (List.replicate digits '1' ++ ' ' :: "x---".toList) =
      some ⟨2, List.replicate digits '1', "x---".toList⟩ := by
    unfold KeyedLine.ofLine?
    rw [hwords]
  rw [keyedLines, splitLines_numbered, keyedFrom_cons, keyedFrom_cons, hofLine]
  rfl

theorem result_numbered (h : maxDigits < digits) :
    (Pattern.parse (numbered digits)).result = .error (.tooManyDigits digits) := by
  obtain ⟨hbig, hcount⟩ := isOversized_replicate h
  refine Pattern.result_eq_error.2 ⟨⟨2, List.replicate digits '1', "x---".toList⟩, ?_, by rw [hcount]⟩
  rw [keyedLines_numbered (Nat.ne_zero_of_lt h), List.find?_cons_of_neg (by decide)]
  exact List.find?_cons_of_pos hbig

/-- a line whose key has a digit more than are read is not skipped: nothing is read, also not the line before it -/
theorem parse_too_many_digits : (Pattern.parse (numbered 4301)).result = .error (.tooManyDigits 4301) ∧
    ¬∀ content, ∃ p, (Pattern.parse content).result = .ok p := by
  have hresult := result_numbered (show maxDigits < 4301 by decide)
  refine ⟨hresult, fun hread => ?_⟩
  obtain ⟨p, hp⟩ := hread (numbered 4301)
  rw [hresult] at hp
  cases hp

end Drumline
