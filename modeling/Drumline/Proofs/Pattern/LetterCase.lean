/-
The case of letters in a pattern text. Keys are compared in upper case and symbols are read in both cases, and each
stage takes a text in lower case to what it takes the text to, in lower case: its words (`keyedLines_lower`), its
pattern (`result_lower`) and then, where symbols become strikes and no letter is left, its file (`toMidi_lower`).

Main result: `midiOfText_congr`, two texts that differ in the case of ASCII letters make the same file or fail with the
same fault.
-/
import Drumline.Conversion
import Drumline.Proofs.Pattern.Merge
import Drumline.Proofs.Text.LetterCase

namespace Drumline

/-! ## Model -/

def KeyedLine.lower (line : KeyedLine) : KeyedLine :=
  { line with key := line.key.map Char.toLower, steps := line.steps.map Char.toLower }

def Hit.lower (hit : Hit) : Hit := { hit with steps := hit.steps.map Char.toLower }

/-- an entry with its symbols in lower case; a mask has none -/
def Entry.lower : Entry → Entry
  | .hit line => .hit line.lower
  | .accents mask => .accents mask

def Pattern.lower (p : Pattern) : Pattern := { p with hits := p.hits.map Hit.lower }

/-- the file that the pattern in a text makes, as bytes -/
def midiOfText (content : List Char) (fileName : String) (settings : Settings) : Except Fault (List UInt8) := do
  let pattern ← (Pattern.parse content).result.mapError Fault.numeral
  (pattern.toMidi fileName settings).mapError Fault.score

/-! ## Keys -/

theorem Drum.ofKey?_lower (key : List Char) : Drum.ofKey? (key.map Char.toLower) = Drum.ofKey? key := by
  simp [Drum.ofKey?]

theorem splitSign_lower (key : List Char) :
    splitSign (key.map Char.toLower) = ((splitSign key).1, (splitSign key).2.map Char.toLower) := by
  fun_cases splitSign key with
  | case1 rest => rfl
  | case2 rest => rfl
  | case3 rest hminus hplus =>
    rw [splitSign.eq_3]
    · intro tail htail
      obtain ⟨rest, hrest⟩ := Text.exists_of_map_toLower_eq_cons (by decide) htail
      exact hminus rest hrest
    · intro tail htail
      obtain ⟨rest, hrest⟩ := Text.exists_of_map_toLower_eq_cons (by decide) htail
      exact hplus rest hrest

theorem plainDigits?_lower (key : List Char) : plainDigits? (key.map Char.toLower) = plainDigits? key := by
  simp [plainDigits?, splitSign_lower, List.mapM_map, Function.comp_def]

theorem Key.isNumeral_lower (key : List Char) : isNumeral (key.map Char.toLower) = isNumeral key := by
  have hsome (key : List Char) : isNumeral key = (plainDigits? key).isSome := by
    rw [plainDigits?_eq]
    cases isNumeral key <;> rfl
  rw [hsome, hsome, plainDigits?_lower]

/-- a key in lower case is resolved as the key is, up to the text that an unknown key is reported with -/
theorem resolveNote_lower (key : List Char) :
    resolveNote (key.map Char.toLower) = (resolveNote key).mapError fun
      | .unknown _ => .unknown (String.ofList (key.map Char.toLower))
      | .unreadable error => .unreadable error := by
  unfold resolveNote
  rw [Drum.ofKey?_lower, plainDigits?_lower]
  cases Drum.ofKey? key with
  | some drum => rfl
  | none =>
    cases plainDigits? key with
    | none => rfl
    | some number =>
      obtain ⟨negative, digits⟩ := number
      by_cases hlong : maxDigits < digits.length
      · simp only [if_pos hlong]
        rfl
      · simp only [if_neg hlong]
        rfl

/-! ## Symbols -/

@[simp] theorem Symbol.ofChar_toLower (c : Char) : Symbol.ofChar c.toLower = Symbol.ofChar c := by
  have hx : (c.toLower = 'x' ∨ c.toLower = 'X') ↔ (c = 'x' ∨ c = 'X') := by
    simp only [← Char.toNat_inj, Text.toNat_toLower]
    change (_ = 120 ∨ _ = 88) ↔ (_ = 120 ∨ _ = 88)
    split <;> omega
  have hf : (c.toLower = 'f' ∨ c.toLower = 'F') ↔ (c = 'f' ∨ c = 'F') := by
    simp only [← Char.toNat_inj, Text.toNat_toLower]
    change (_ = 102 ∨ _ = 70) ↔ (_ = 102 ∨ _ = 70)
    split <;> omega
  simp only [Symbol.ofChar, hx, hf]

theorem accentMask_lower (steps : List Char) : accentMask (steps.map Char.toLower) = accentMask steps := by
  simp [accentMask]

/-! ## Lines -/

namespace KeyedLine

theorem ofLine?_lower (number : Nat) (line : List Char) :
    ofLine? number (line.map Char.toLower) = (ofLine? number line).map lower := by
  unfold ofLine?
  rw [Text.splitBlanks_map_toLower]
  cases Text.splitBlanks line with
  | nil => rfl
  | cons key words =>
    cases words with
    | nil => rfl
    | cons steps words => rfl

@[simp] theorem isAccent_lower (line : KeyedLine) : line.lower.isAccent = line.isAccent :=
  Text.isWord_map_toLower _ _

theorem entry?_lower (line : KeyedLine) : line.lower.entry? = line.entry?.map (Option.map Entry.lower) := by
  unfold entry?
  rw [isAccent_lower]
  cases line.isAccent with
  | true => simp [lower, accentMask_lower, Except.map, Entry.lower]
  | false =>
    simp only [lower, resolveNote_lower]
    cases resolveNote line.key with
    | ok note => rfl
    | error error =>
      cases error with
      | unknown text => rfl
      | unreadable error => rfl

theorem isNote_lower (line : KeyedLine) : Key.isNote line.lower.key = Key.isNote line.key := by
  simp [Key.isNote, lower, Key.isNumeral_lower]

@[simp] theorem isAccepted_lower (line : KeyedLine) : line.lower.isAccepted = line.isAccepted := by
  unfold isAccepted
  rw [isNote_lower]
  exact congrArg (· || _) (isAccent_lower line)

end KeyedLine

theorem keyedFrom_lower (number : Nat) (lines : List (List Char)) :
    keyedFrom number (lines.map (List.map Char.toLower)) = (keyedFrom number lines).map KeyedLine.lower := by
  induction lines generalizing number with
  | nil => rfl
  | cons line lines ih =>
    rw [List.map_cons, keyedFrom_cons, keyedFrom_cons, ih, KeyedLine.ofLine?_lower, List.map_append]
    cases KeyedLine.ofLine? number line <;> rfl

theorem keyedLines_lower (text : List Char) :
    keyedLines (text.map Char.toLower) = (keyedLines text).map KeyedLine.lower := by
  rw [keyedLines, Text.splitLines_map_toLower, keyedFrom_lower]
  rfl

/-- the lines that count in a text in lower case -/
theorem acceptedLines_lower (text : List Char) :
    acceptedLines (text.map Char.toLower) = (acceptedLines text).map KeyedLine.lower := by
  simp [acceptedLines, keyedLines_lower, List.filter_map, Function.comp_def]

/-! ## Patterns -/

namespace Pattern

theorem assemble_lower (entries : List Entry) : assemble (entries.map Entry.lower) = (assemble entries).lower := by
  have hlength : (assemble (entries.map Entry.lower)).length = (assemble entries).length := by
    have hentry (entry : Entry) : entry.lower.length = entry.length := by
      cases entry <;> simp [Entry.lower, Entry.length, Hit.lower]
    simp [assemble, hentry, Function.comp_def]
  have hhits : (assemble (entries.map Entry.lower)).hits = (assemble entries).lower.hits := by
    have hentry (entry : Entry) : entry.lower.hit? = entry.hit?.map Hit.lower := by
      cases entry <;> rfl
    simp [lower, hits_eq_cut, hlength, hentry, List.filterMap_map, List.map_filterMap, Function.comp_def, Hit.cut,
      Hit.lower, List.map_take]
  have haccents : (assemble (entries.map Entry.lower)).accents = (assemble entries).accents := by
    have hentry (entry : Entry) : entry.lower.mask? = entry.mask? := by
      cases entry <;> rfl
    simp [accents_eq_take, hlength, hentry, List.filterMap_map]
  calc assemble (entries.map Entry.lower)
      = ⟨(assemble (entries.map Entry.lower)).hits, (assemble (entries.map Entry.lower)).accents,
          (assemble (entries.map Entry.lower)).length⟩ := rfl
    _ = (assemble entries).lower := by
      rw [hhits, haccents, hlength]
      rfl

/-- the pattern of a text in lower case -/
theorem result_lower (text : List Char) :
    (parse (text.map Char.toLower)).result = (parse text).result.map lower := by
  rw [result_eq, result_eq, keyedLines_lower, List.mapM_map]
  simp only [Function.comp_def, KeyedLine.entry?_lower]
  rw [mapM_map]
  cases (keyedLines text).mapM KeyedLine.entry? with
  | error error => rfl
  | ok entries =>
    have hentries : (entries.map (Option.map Entry.lower)).filterMap id = (entries.filterMap id).map Entry.lower := by
      rw [List.filterMap_map, List.map_filterMap]
      rfl
    simp only [Except.map, hentries, assemble_lower]

/-! ## Files -/

theorem strikes_lower (p : Pattern) (step : Nat) : p.lower.strikes step = p.strikes step := by
  have hstrike (hit : Hit) : hit.lower.strike? step = hit.strike? step := by
    unfold Hit.strike? Hit.lower
    rw [List.getElem?_map]
    cases hit.steps[step]? with
    | none => rfl
    | some c => simp
  simp [strikes, lower, List.mapM_map, Function.comp_def, hstrike]

theorem eventsFrom_lower (p : Pattern) (feel : Feel) (wait : Int) (steps : List Nat) :
    p.lower.eventsFrom feel wait steps = p.eventsFrom feel wait steps := by
  induction steps generalizing wait with
  | nil => rfl
  | cons step steps ih =>
    have haccent : p.lower.isAccented step = p.isAccented step := rfl
    simp only [eventsFrom, strikes_lower, haccent, ih]

/-- a pattern in lower case makes the same file -/
theorem toMidi_lower (p : Pattern) (fileName : String) (settings : Settings) :
    p.lower.toMidi fileName settings = p.toMidi fileName settings := by
  have hevents (feel : Feel) : p.lower.events feel = p.events feel := eventsFrom_lower p feel 0 _
  have hlength : p.lower.length = p.length := rfl
  simp only [toMidi, arrange, hevents, hlength]

end Pattern

theorem midiOfText_lower (text : List Char) (fileName : String) (settings : Settings) :
    midiOfText (text.map Char.toLower) fileName settings = midiOfText text fileName settings := by
  rw [midiOfText, midiOfText, Pattern.result_lower]
  cases (Pattern.parse text).result with
  | error error => rfl
  | ok p =>
    apply congrArg (Except.mapError Fault.score)
    exact Pattern.toMidi_lower p fileName settings

/-- **The case of letters does not matter.** Two texts that differ only in the case of ASCII letters make the same file
or fail with the same fault. The same of their lines count, and their patterns have the same length, the same mask and
hit lines of the same notes. -/
theorem midiOfText_congr {text other : List Char} (h : text.map Char.toLower = other.map Char.toLower)
    (fileName : String) (settings : Settings) :
    midiOfText text fileName settings = midiOfText other fileName settings ∧
      (acceptedLines text).map (·.number) = (acceptedLines other).map (·.number) ∧
      (Pattern.parse text).result.map (fun p => (p.length, p.accents, p.hits.map (·.note))) =
        (Pattern.parse other).result.map fun p => (p.length, p.accents, p.hits.map (·.note)) := by
  have hnumbers (text : List Char) :
      (acceptedLines text).map (·.number) = (acceptedLines (text.map Char.toLower)).map (·.number) := by
    rw [acceptedLines_lower, List.map_map]
    rfl
  have hpattern (text : List Char) :
      (Pattern.parse text).result.map (fun p => (p.length, p.accents, p.hits.map (·.note))) =
        (Pattern.parse (text.map Char.toLower)).result.map fun p => (p.length, p.accents, p.hits.map (·.note)) := by
    rw [Pattern.result_lower]
    cases (Pattern.parse text).result with
    | error error => rfl
    | ok p => simp [Except.map, Pattern.lower, Hit.lower, Function.comp_def]
  refine ⟨?_, ?_, ?_⟩
  · rw [← midiOfText_lower text, ← midiOfText_lower other, h]
  · rw [hnumbers text, hnumbers other, h]
  · rw [hpattern text, hpattern other, h]

/-- a snare whose name begins with a long s, which the upper case of the key takes into ASCII, and a mask -/
theorem midiOfText_congr_snare :
    midiOfText "ſD xF-\nac X--".toList "a.pat" .standard = midiOfText "ſd Xf-\nAC x--".toList "a.pat" .standard ∧
      (acceptedLines "ſD xF-\nac X--".toList).map (·.number) = [1, 2] ∧
      (Pattern.parse "ſD xF-\nac X--".toList).result.map (fun p => (p.length, p.accents, p.hits.map (·.note))) =
        .ok (3, [true, false, false], [38]) := by
  have h : "ſD xF-\nac X--".toList.map Char.toLower = "ſd Xf-\nAC x--".toList.map Char.toLower := by decide +kernel
  obtain ⟨hfile, hnumbers, hpattern⟩ := midiOfText_congr h "a.pat" .standard
  refine ⟨hfile, hnumbers.trans ?_, hpattern.trans ?_⟩
  · decide +kernel
  · decide +kernel

end Drumline
