/-
What a pattern is by the text that it is read from.

A line counts by its first two words, its key and its steps (`KeyedLine`), and is accepted if its key is that of the
accent line or names a note. `Pattern.Meets` says of a pattern that it is what the accepted lines of a text make.

Results:
- `readLines_ok`: the entries that are read are those of the accepted lines in order, and the others are skipped.
- `parse_meets`: what is read from a text meets it; one warning is given for each line of two words that is not
  accepted, and nothing else of the text matters.
-/
import Drumline.Notice
import Drumline.Proofs.Except
import Drumline.Proofs.Pattern.Key

namespace Drumline

/-! ## Model -/

/-- the number of a line, from one on, and its first two words -/
structure KeyedLine where
  number : Nat
  key : List Char
  steps : List Char
deriving DecidableEq, Repr

namespace KeyedLine

/-- a line of at least two words -/
def ofLine? (number : Nat) (line : List Char) : Option KeyedLine :=
  match Text.splitBlanks line with
  | key :: steps :: _ => some ⟨number, key, steps⟩
  | _ => none

def isAccent (line : KeyedLine) : Bool := Key.isAccent line.key

/-- whether a line counts -/
def isAccepted (line : KeyedLine) : Bool := Key.isAccent line.key || Key.isNote line.key

/-- the warning that a line is skipped -/
def warning (source : String) (line : KeyedLine) : Notice :=
  .lineSkipped source ⟨line.number, String.ofList line.key⟩

end KeyedLine

/-- the lines of two words among some, which are counted from a number on -/
def keyedFrom (number : Nat) (lines : List (List Char)) : List KeyedLine :=
  (lines.zipIdx number).filterMap fun numbered => KeyedLine.ofLine? numbered.2 numbered.1

/-- the lines of two words of a text -/
def keyedLines (content : List Char) : List KeyedLine := keyedFrom 1 (Text.splitLines content)

/-- the lines of a text that count -/
def acceptedLines (content : List Char) : List KeyedLine := (keyedLines content).filter (·.isAccepted)

/-- whether a pattern is what the accepted lines of a text make: as long as the shortest, with a hit line for each that
is no accent line, and with the mask of the last accent line -/
structure Pattern.Meets (p : Pattern) (content : List Char) : Prop where
  length_eq_zero : acceptedLines content = [] → p.length = 0
  length_mem : acceptedLines content ≠ [] → ∃ line ∈ acceptedLines content, p.length = line.steps.length
  length_le : ∀ line ∈ acceptedLines content, p.length ≤ line.steps.length
  hits : List.Forall₂ (fun line hit => Key.Names line.key hit.note ∧ hit.steps = line.steps.take p.length.toNat)
    ((acceptedLines content).filter (!·.isAccent)) p.hits
  accents : p.accents = (((acceptedLines content).filter (·.isAccent)).getLast?.elim [] fun line =>
    line.steps.map fun c => decide (c = 'x' ∨ c = 'X')).take p.length.toNat

/-- the entry of a line of two words; none if it is skipped -/
def KeyedLine.entry? (line : KeyedLine) : Except NumeralError (Option Entry) :=
  if line.isAccent then .ok (some (.accents (accentMask line.steps)))
  else
    match resolveNote line.key with
    | .ok note => .ok (some (.hit ⟨note, line.steps⟩))
    | .error (.unknown _) => .ok none
    | .error (.unreadable error) => .error error

inductive Entry.Of : KeyedLine → Entry → Prop
  | accents {line : KeyedLine} (h : line.isAccent = true) : Of line (.accents (accentMask line.steps))
  | hit {line : KeyedLine} {note : Int} (h : line.isAccent = false) (hnote : resolveNote line.key = .ok note) :
    Of line (.hit ⟨note, line.steps⟩)

/-! ## Lines -/

theorem keyedFrom_cons (number : Nat) (line : List Char) (lines : List (List Char)) :
    keyedFrom number (line :: lines) = (KeyedLine.ofLine? number line).toList ++ keyedFrom (number + 1) lines := by
  unfold keyedFrom
  rw [List.zipIdx_cons, List.filterMap_cons]
  cases KeyedLine.ofLine? number line with
  | none => simp only [Option.toList_none, List.nil_append]
  | some keyed => simp only [Option.toList_some, List.singleton_append]

theorem readLine_eq (number : Nat) (line : List Char) :
    readLine line = match KeyedLine.ofLine? number line with
      | none => .ok none
      | some keyed =>
        if keyed.isAccent then .ok (some (.accents (accentMask keyed.steps)))
        else (resolveNote keyed.key).map fun note => some (.hit ⟨note, keyed.steps⟩) := by
  unfold readLine KeyedLine.ofLine?
  cases Text.splitBlanks line with
  | nil => rfl
  | cons key words =>
    cases words with
    | nil => rfl
    | cons steps words => rfl

/-- no entry comes of a line that is not accepted -/
theorem Entry.Of.isAccepted {line : KeyedLine} {entry : Entry} (h : Entry.Of line entry) : line.isAccepted = true := by
  rw [KeyedLine.isAccepted, Bool.or_eq_true]
  cases h with
  | accents h => exact .inl h
  | hit _ hnote => exact .inr (names_of_resolveNote hnote).1.isNote

theorem KeyedLine.number_of_ofLine? {number : Nat} {line : List Char} {keyed : KeyedLine}
    (h : KeyedLine.ofLine? number line = some keyed) : keyed.number = number := by
  unfold KeyedLine.ofLine? at h
  split at h
  · cases h
    rfl
  · cases h

/-- a line has fewer than two words, or it has an entry, or it is skipped, or its key has too many digits -/
theorem readLine_cases (number : Nat) (line : List Char) :
    (KeyedLine.ofLine? number line = none ∧ readLine line = .ok none) ∨
    ∃ keyed, KeyedLine.ofLine? number line = some keyed ∧
      ((∃ entry, Entry.Of keyed entry ∧ keyed.entry? = .ok (some entry) ∧ readLine line = .ok (some entry)) ∨
      (keyed.isAccepted = false ∧ keyed.entry? = .ok none ∧
        readLine line = .error (.unknown (String.ofList keyed.key))) ∨
      ∃ error, keyed.entry? = .error error ∧ readLine line = .error (.unreadable error)) := by
  rw [readLine_eq number]
  cases hkeyed : KeyedLine.ofLine? number line with
  | none => exact .inl ⟨rfl, rfl⟩
  | some keyed =>
    refine .inr ⟨keyed, rfl, ?_⟩
    unfold KeyedLine.entry?
    cases haccent : keyed.isAccent with
    | true => exact .inl ⟨_, .accents haccent, rfl, by simp only [haccent, if_true]⟩
    | false =>
      simp only [haccent, Bool.false_eq_true, if_false]
      cases hnote : resolveNote keyed.key with
      | ok note => exact .inl ⟨_, .hit haccent hnote, rfl, rfl⟩
      | error error =>
        cases error with
        | unreadable error => exact .inr (.inr ⟨error, rfl, rfl⟩)
        | unknown text =>
          obtain ⟨hnone, rfl⟩ := isNote_of_resolveNote hnote
          have hrejected : keyed.isAccepted = false := by
            rw [KeyedLine.isAccepted, hnone, Bool.or_false]
            exact haccent
          exact .inr (.inl ⟨hrejected, rfl, rfl⟩)

/-- **Reading lines.** The entries are those of the accepted lines, in order, and the others of two words are
skipped. -/
theorem readLines_ok {number : Nat} {lines : List (List Char)} {skipped : List SkippedLine} {entries : List Entry}
    (h : readLines number lines = (skipped, .ok entries)) :
    List.Forall₂ Entry.Of ((keyedFrom number lines).filter (·.isAccepted)) entries ∧
      skipped = ((keyedFrom number lines).filter (!·.isAccepted)).map fun line =>
        ⟨line.number, String.ofList line.key⟩ := by
  induction lines generalizing number skipped entries with
  | nil =>
    cases h
    exact ⟨.nil, rfl⟩
  | cons line lines ih =>
    rw [keyedFrom_cons]
    unfold readLines at h
    rcases readLine_cases number line with ⟨hkeyed, hline⟩ | ⟨keyed, hkeyed, ⟨entry, hof, -, hline⟩ |
        ⟨hrejected, -, hline⟩ | ⟨error, -, hline⟩⟩
    · rw [hline] at h
      obtain ⟨rfl, hmap⟩ := Prod.mk.inj h
      obtain ⟨others, hothers, rfl⟩ := map_eq_ok.1 hmap
      rw [hkeyed]
      exact ih (Prod.ext rfl hothers)
    · rw [hline] at h
      obtain ⟨rfl, hmap⟩ := Prod.mk.inj h
      obtain ⟨others, hothers, rfl⟩ := map_eq_ok.1 hmap
      obtain ⟨hentries, hskipped⟩ := ih (Prod.ext rfl hothers)
      rw [hkeyed, Option.toList_some, List.singleton_append, List.filter_cons_of_pos hof.isAccepted,
        List.filter_cons_of_neg (by rw [hof.isAccepted]; exact Bool.false_ne_true)]
      exact ⟨.cons hof hentries, hskipped⟩
    · rw [hline] at h
      obtain ⟨rfl, hothers⟩ := Prod.mk.inj h
      obtain ⟨hentries, hskipped⟩ := ih (Prod.ext rfl hothers)
      rw [hkeyed, Option.toList_some, List.singleton_append,
        List.filter_cons_of_neg (by rw [hrejected]; exact Bool.false_ne_true),
        List.filter_cons_of_pos (by rw [hrejected]; rfl), List.map_cons, ← hskipped,
        KeyedLine.number_of_ofLine? hkeyed]
      exact ⟨hentries, rfl⟩
    · rw [hline] at h
      cases h

/-! ## Patterns -/

namespace Pattern

variable {lines : List KeyedLine} {entries : List Entry}

theorem map_length_of_forall₂ (h : List.Forall₂ Entry.Of lines entries) :
    entries.map Entry.length = lines.map (·.steps.length) := by
  induction h with
  | nil => rfl
  | cons hof _ ih =>
    rw [List.map_cons, List.map_cons, ih]
    cases hof with
    | accents => rw [Entry.length, accentMask, List.length_map]
    | hit => rfl

theorem length_assemble (h : List.Forall₂ Entry.Of lines entries) :
    (lines = [] → (assemble entries).length = 0) ∧
      (lines ≠ [] → ∃ line ∈ lines, (assemble entries).length = line.steps.length) ∧
      ∀ line ∈ lines, (assemble entries).length ≤ line.steps.length := by
  have hlength : (assemble entries).length = (((lines.map (·.steps.length)).min?.getD 0 : Nat) : Int) := by
    rw [← map_length_of_forall₂ h]
    rfl
  rw [hlength]
  cases hmin : (lines.map (·.steps.length)).min? with
  | none =>
    obtain rfl : lines = [] := List.map_eq_nil_iff.1 (List.min?_eq_none_iff.1 hmin)
    exact ⟨fun _ => rfl, fun hne => (hne rfl).elim, fun _ hline => (List.not_mem_nil hline).elim⟩
  | some n =>
    obtain ⟨hmem, hle⟩ := List.min?_eq_some_iff.1 hmin
    obtain ⟨line, hline, hn⟩ := List.mem_map.1 hmem
    refine ⟨fun hnil => ?_, fun _ => ⟨line, hline, ?_⟩, fun other hother => ?_⟩
    · rw [hnil] at hline
      exact (List.not_mem_nil hline).elim
    · exact congrArg Nat.cast hn.symm
    · exact Int.ofNat_le.2 (hle _ (List.mem_map_of_mem hother))

/-- the hit lines of assembled entries, each with its note and cut -/
theorem hits_assemble (h : List.Forall₂ Entry.Of lines entries) (n : Nat) :
    List.Forall₂ (fun line hit => resolveNote line.key = .ok hit.note ∧ hit.steps = line.steps.take n)
      (lines.filter (!·.isAccent))
      (entries.filterMap fun
        | .hit line => some { line with steps := line.steps.take n }
        | .accents _ => none) := by
  induction h with
  | nil => exact .nil
  | cons hof _ ih =>
    cases hof with
    | accents h =>
      rw [List.filter_cons_of_neg (by rw [h]; exact Bool.false_ne_true)]
      exact ih
    | hit h hnote =>
      rw [List.filter_cons_of_pos (by rw [h]; rfl)]
      exact .cons ⟨hnote, rfl⟩ ih

/-- the masks of some entries -/
theorem masks_assemble (h : List.Forall₂ Entry.Of lines entries) :
    (entries.filterMap fun
      | .accents mask => some mask
      | .hit _ => none) = (lines.filter (·.isAccent)).map fun line => accentMask line.steps := by
  induction h with
  | nil => rfl
  | cons hof _ ih =>
    cases hof with
    | accents h =>
      rw [List.filter_cons_of_pos h, List.map_cons, ← ih]
      rfl
    | hit h _ =>
      rw [List.filter_cons_of_neg (by rw [h]; exact Bool.false_ne_true), ← ih]
      rfl

/-- only hits accent, in either case -/
theorem accentMask_eq (steps : List Char) : accentMask steps = steps.map fun c => decide (c = 'x' ∨ c = 'X') := by
  apply List.map_congr_left
  intro c _
  unfold Symbol.ofChar
  split_ifs with hhit hflam
  · exact (decide_eq_true hhit).symm
  · exact (decide_eq_false hhit).symm
  · exact (decide_eq_false hhit).symm

end Pattern

/-- what is read comes from entries of the accepted lines, and the others of two words are skipped -/
theorem exists_entries_of_parse {content : List Char} {p : Pattern} (h : (Pattern.parse content).result = .ok p) :
    (∃ entries, List.Forall₂ Entry.Of (acceptedLines content) entries ∧ p = Pattern.assemble entries) ∧
      (Pattern.parse content).skipped = ((keyedLines content).filter (!·.isAccepted)).map fun line =>
        ⟨line.number, String.ofList line.key⟩ := by
  unfold Pattern.parse at h ⊢
  cases hread : readLines 1 (Text.splitLines content) with
  | mk skipped result =>
    rw [hread] at h
    obtain ⟨entries, rfl, rfl⟩ := map_eq_ok.1 h
    obtain ⟨hentries, hskipped⟩ := readLines_ok hread
    exact ⟨⟨entries, hentries, rfl⟩, hskipped⟩

theorem meets_of_entries {content : List Char} {entries : List Entry}
    (h : List.Forall₂ Entry.Of (acceptedLines content) entries) : (Pattern.assemble entries).Meets content := by
  obtain ⟨hnil, hmem, hle⟩ := Pattern.length_assemble h
  refine ⟨hnil, hmem, hle, ?_, ?_⟩
  · exact (Pattern.hits_assemble h _).imp fun _ _ hline => ⟨(names_of_resolveNote hline.1).1, hline.2⟩
  · have hmasks := congrArg (fun masks : List (List Bool) =>
      (masks.getLast?.getD []).take ((entries.map Entry.length).min?.getD 0)) (Pattern.masks_assemble h)
    refine hmasks.trans ?_
    rw [List.getLast?_map]
    cases ((acceptedLines content).filter (·.isAccent)).getLast? with
    | none => rfl
    | some line =>
      rw [Option.map_some, Option.getD_some, Option.elim_some, Pattern.accentMask_eq]
      rfl

/-! ## Lengths -/

namespace Pattern.Meets

variable {content : List Char} {p : Pattern}

theorem length_nonneg (h : p.Meets content) : 0 ≤ p.length := by
  by_cases hnil : acceptedLines content = []
  · exact (h.length_eq_zero hnil).ge
  · obtain ⟨line, -, hlength⟩ := h.length_mem hnil
    rw [hlength]
    exact Int.natCast_nonneg _

theorem length_of_mem_hits (h : p.Meets content) {hit : Hit} (hhit : hit ∈ p.hits) :
    (hit.steps.length : Int) = p.length := by
  obtain ⟨line, hline, -, hsteps⟩ := exists_of_mem_right h.hits hhit
  have hle := h.length_le line (List.mem_of_mem_filter hline)
  have hnonneg := h.length_nonneg
  rw [hsteps, List.length_take]
  omega

theorem length_accents (h : p.Meets content) : p.accents = [] ∨ (p.accents.length : Int) = p.length := by
  rw [h.accents]
  cases hlast : ((acceptedLines content).filter (·.isAccent)).getLast? with
  | none => exact .inl List.take_nil
  | some line =>
    have hle := h.length_le line (List.mem_of_mem_filter (List.mem_of_getLast? hlast))
    have hnonneg := h.length_nonneg
    rw [Option.elim_some, List.length_take, List.length_map]
    exact .inr (by omega)

end Pattern.Meets

/-! ## What matters of a text -/

/-- the entries of some lines are found line by line -/
theorem readLines_snd (number : Nat) (lines : List (List Char)) :
    (readLines number lines).2 = ((keyedFrom number lines).mapM KeyedLine.entry?).map (·.filterMap id) := by
  induction lines generalizing number with
  | nil => rfl
  | cons line lines ih =>
    rw [keyedFrom_cons]
    unfold readLines
    rcases readLine_cases number line with ⟨hkeyed, hline⟩ | ⟨keyed, hkeyed, ⟨entry, -, hentry, hline⟩ |
        ⟨-, hentry, hline⟩ | ⟨error, hentry, hline⟩⟩
    · rw [hline, hkeyed]
      show (readLines (number + 1) lines).2.map ([] ++ ·) =
        ((keyedFrom (number + 1) lines).mapM KeyedLine.entry?).map (·.filterMap id)
      rw [ih]
      cases (keyedFrom (number + 1) lines).mapM KeyedLine.entry? <;> rfl
    · rw [hline, hkeyed, Option.toList_some, List.singleton_append, List.mapM_cons, hentry]
      show (readLines (number + 1) lines).2.map (entry :: ·) = _
      rw [ih]
      cases (keyedFrom (number + 1) lines).mapM KeyedLine.entry? <;> rfl
    · rw [hline, hkeyed, Option.toList_some, List.singleton_append, List.mapM_cons, hentry]
      show (readLines (number + 1) lines).2 = _
      rw [ih]
      cases (keyedFrom (number + 1) lines).mapM KeyedLine.entry? <;> rfl
    · rw [hline, hkeyed, Option.toList_some, List.singleton_append, List.mapM_cons, hentry]
      rfl

/-- what is read of a text is assembled from the entries of its lines -/
theorem Pattern.result_eq (content : List Char) : (Pattern.parse content).result =
    (((keyedLines content).mapM KeyedLine.entry?).map (·.filterMap id)).map Pattern.assemble := by
  rw [keyedLines, ← readLines_snd]
  rfl

/-- lines with the same words have the same entries, whatever their numbers are -/
theorem mapM_entry?_congr {lines others : List KeyedLine}
    (h : others.map (fun line => (line.key, line.steps)) = lines.map fun line => (line.key, line.steps)) :
    others.mapM KeyedLine.entry? = lines.mapM KeyedLine.entry? := by
  have hwords (lines : List KeyedLine) : lines.mapM KeyedLine.entry? =
      (lines.map fun line => (line.key, line.steps)).mapM fun words => KeyedLine.entry? ⟨0, words.1, words.2⟩ := by
    rw [List.mapM_map]
    rfl
  rw [hwords, hwords, h]

/-- of two texts with the same first two words of lines the same pattern is read -/
theorem parse_congr {content other : List Char}
    (h : (keyedLines other).map (fun line => (line.key, line.steps)) =
      (keyedLines content).map fun line => (line.key, line.steps)) :
    (Pattern.parse other).result = (Pattern.parse content).result := by
  rw [Pattern.result_eq, Pattern.result_eq, mapM_entry?_congr h]

/-- **Parsing meets the grammar.** A pattern that is read is what the accepted lines of its text make: its lines and its
mask have its length, every other line of two words is warned of by its number, in order, and nothing but the first two
words of lines matters. -/
theorem parse_meets {content : List Char} {p : Pattern} (h : (Pattern.parse content).result = .ok p)
    (source : String) :
    p.Meets content ∧ (∀ hit ∈ p.hits, (hit.steps.length : Int) = p.length) ∧
      (p.accents = [] ∨ (p.accents.length : Int) = p.length) ∧
      Notice.ofSkipped source (Pattern.parse content).skipped =
        ((keyedLines content).filter (!·.isAccepted)).map (KeyedLine.warning source) ∧
      ∀ other, (keyedLines other).map (fun line => (line.key, line.steps)) =
        (keyedLines content).map (fun line => (line.key, line.steps)) → (Pattern.parse other).result = .ok p := by
  obtain ⟨⟨entries, hentries, rfl⟩, hskipped⟩ := exists_entries_of_parse h
  have hmeets := meets_of_entries hentries
  refine ⟨hmeets, fun hit hhit => hmeets.length_of_mem_hits hhit, hmeets.length_accents, ?_, fun other hother => ?_⟩
  · rw [hskipped, Notice.ofSkipped, List.map_map]
    rfl
  · rw [parse_congr hother, h]

/-- a snare, a line that is skipped and an accent line -/
theorem parse_meets_snare :
    (Pattern.mk [⟨38, ['x', '-']⟩] [false, true] 2).Meets "SD x-x\nXX x\nac -x".toList ∧
      Notice.ofSkipped "a.pat" (Pattern.parse "SD x-x\nXX x\nac -x".toList).skipped =
        [.lineSkipped "a.pat" ⟨2, "XX"⟩] := by
  have h : (Pattern.parse "SD x-x\nXX x\nac -x".toList).result =
      .ok ⟨[⟨38, ['x', '-']⟩], [false, true], 2⟩ := by decide +kernel
  obtain ⟨hmeets, -, -, hwarnings, -⟩ := parse_meets h "a.pat"
  refine ⟨hmeets, hwarnings.trans ?_⟩
  decide +kernel

end Drumline
