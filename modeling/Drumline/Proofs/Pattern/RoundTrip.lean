/-
Which patterns are read from texts, and that these are written so that they are read again.

`Pattern.WellFormed` says it without a text: a pattern is empty, or it has some steps, every line of it is as long as it
and free of blanks, no note has too many digits, and its mask is empty or as long as it.

Results:
- `wellFormed_of_parse`: what is read is well-formed, through what `Pattern.Meets` says of it.
- `parse_format`: a well-formed pattern is written, and read again without a warning.
- `parse_format_roundtrip`: so the patterns that are read, those that survive writing and reading, and the well-formed
  ones are the same.
-/
import Drumline.Proofs.Pattern.Grammar
import Drumline.Proofs.Text.Lines

namespace Drumline

/-! ## Model -/

/-- whether lines of some text make the pattern -/
def Pattern.WellFormed (p : Pattern) : Prop :=
  (p.hits = [] ∧ p.accents = [] ∧ p.length = 0) ∨
  (1 ≤ p.length ∧ (p.hits ≠ [] ∨ p.accents ≠ []) ∧
    (∀ hit ∈ p.hits, (hit.steps.length : Int) = p.length ∧ (∀ c ∈ hit.steps, Text.isBlank c = false) ∧
      hit.note.natAbs < 10 ^ maxDigits) ∧
    (p.accents = [] ∨ (p.accents.length : Int) = p.length))

/-- the line of a hit, without its break -/
def Hit.line (hit : Hit) : List Char := (toString hit.note).toList ++ ' ' :: hit.steps

/-- the line of a mask, without its break -/
def accentLine (mask : List Bool) : List Char :=
  accentKey.toList ++ ' ' :: mask.map fun accent => if accent then 'x' else '-'

namespace Pattern

def lines (p : Pattern) : List (List Char) :=
  p.hits.map Hit.line ++ if p.accents = [] then [] else [accentLine p.accents]

def entries (p : Pattern) : List Entry :=
  p.hits.map Entry.hit ++ if p.accents = [] then [] else [.accents p.accents]

end Pattern

/-! ## From text -/

/-- the steps of a line of two words are a word -/
theorem KeyedLine.steps_of_mem {content : List Char} {line : KeyedLine} (h : line ∈ keyedLines content) :
    line.steps ≠ [] ∧ ∀ c ∈ line.steps, Text.isBlank c = false := by
  obtain ⟨numbered, -, hline⟩ := List.mem_filterMap.1 h
  unfold KeyedLine.ofLine? at hline
  split at hline
  · rename_i key steps words hwords
    cases hline
    have hmem : steps ∈ Text.splitBlanks numbered.1 := by
      rw [hwords]
      exact List.mem_cons_of_mem _ List.mem_cons_self
    exact Text.ne_nil_and_not_isBlank_of_mem_splitBlanks hmem
  · cases hline

/-- what is read is well-formed -/
theorem wellFormed_of_parse {content : List Char} {p : Pattern} (h : (Pattern.parse content).result = .ok p) :
    p.WellFormed := by
  obtain ⟨⟨entries, hentries, rfl⟩, -⟩ := exists_entries_of_parse h
  have hmeets := meets_of_entries hentries
  by_cases hnil : acceptedLines content = []
  · rw [hnil] at hentries
    cases hentries
    exact .inl ⟨rfl, rfl, rfl⟩
  have hword (line : KeyedLine) (hline : line ∈ acceptedLines content) :
      line.steps ≠ [] ∧ ∀ c ∈ line.steps, Text.isBlank c = false :=
    KeyedLine.steps_of_mem (List.mem_of_mem_filter hline)
  obtain ⟨shortest, hshortest, hlength⟩ := hmeets.length_mem hnil
  have hpos : 1 ≤ (Pattern.assemble entries).length := by
    have := List.length_pos_iff.2 (hword shortest hshortest).1
    omega
  refine .inr ⟨hpos, ?_, fun hit hhit => ⟨hmeets.length_of_mem_hits hhit, ?_, ?_⟩, hmeets.length_accents⟩
  · cases haccent : shortest.isAccent with
    | false =>
      left
      intro hhits
      have hlines := hmeets.hits
      rw [hhits, List.forall₂_nil_right_iff] at hlines
      have hmem : shortest ∈ (acceptedLines content).filter (!·.isAccent) :=
        List.mem_filter.2 ⟨hshortest, by rw [haccent]; rfl⟩
      rw [hlines] at hmem
      exact List.not_mem_nil hmem
    | true =>
      right
      rw [hmeets.accents]
      cases hlast : ((acceptedLines content).filter (·.isAccent)).getLast? with
      | none =>
        have hmem := List.mem_filter.2 ⟨hshortest, haccent⟩
        rw [List.getLast?_eq_none_iff.1 hlast] at hmem
        exact (List.not_mem_nil hmem).elim
      | some line =>
        have hline := hword line (List.mem_of_mem_filter (List.mem_of_getLast? hlast))
        rw [Option.elim_some, ← List.length_pos_iff, List.length_take, List.length_map]
        have := List.length_pos_iff.2 hline.1
        omega
  · obtain ⟨line, hline, -, hsteps⟩ := exists_of_mem_right hmeets.hits hhit
    intro c hc
    rw [hsteps] at hc
    exact (hword line (List.mem_of_mem_filter hline)).2 c (List.mem_of_mem_take hc)
  · obtain ⟨line, -, hnote, -⟩ := exists_of_mem_right (Pattern.hits_assemble hentries _) hhit
    exact (names_of_resolveNote hnote).2

/-! ## To text -/

/-- a pattern without too many digits is written line by line -/
theorem format_eq {p : Pattern} (h : ∀ hit ∈ p.hits, hit.note.natAbs < 10 ^ maxDigits) :
    p.format = .ok (p.lines.flatMap (· ++ ['\n'])) := by
  have hlines : p.hits.mapM Hit.format = .ok (p.hits.map fun hit => hit.line ++ ['\n']) := by
    apply mapM_eq_ok_map
    intro hit hhit
    rw [Hit.format, writeInteger_eq_ok.2 ⟨h hit hhit, rfl⟩]
    rfl
  have haccents : (if p.accents = [] then [] else formatAccents p.accents) =
      (if p.accents = [] then [] else [accentLine p.accents]).flatMap (· ++ ['\n']) := by
    split
    · rfl
    · exact (List.append_nil _).symm
  rw [Pattern.format, hlines, Pattern.lines, List.flatMap_append, ← haccents, List.flatMap_map]
  rfl

theorem isBlank_of_mem_toString {n : Int} {c : Char} (h : c ∈ (toString n).toList) : Text.isBlank c = false := by
  obtain ⟨hlow, hhigh⟩ := toNat_lt_of_mem_toString h
  unfold Text.isBlank
  simp only [Bool.or_eq_false_iff, Bool.and_eq_false_imp, decide_eq_true_eq, decide_eq_false_iff_not,
    beq_eq_false_iff_ne]
  omega

theorem readLine_line {hit : Hit} (hnote : hit.note.natAbs < 10 ^ maxDigits) (hne : hit.steps ≠ [])
    (h : ∀ c ∈ hit.steps, Text.isBlank c = false) : readLine hit.line = .ok (some (.hit hit)) := by
  have hwords := Text.splitBlanks_pair (toString_ne_nil hit.note) hne (fun c hc => isBlank_of_mem_toString hc) h
  have haccent : Text.isWord accentKey (toString hit.note).toList = false :=
    (Key.isAccent_of_isNumeral (isNumeral_toString hit.note)).1
  unfold readLine Hit.line
  rw [hwords]
  simp only [haccent, Bool.false_eq_true, if_false, resolveNote_toString hnote]
  rfl

theorem accentMask_symbols (mask : List Bool) :
    accentMask (mask.map fun accent => if accent then 'x' else '-') = mask := by
  unfold accentMask
  rw [List.map_map]
  refine (List.map_congr_left fun accent _ => ?_).trans (List.map_id mask)
  cases accent <;> rfl

theorem isBlank_of_mem_symbols {mask : List Bool} {c : Char}
    (h : c ∈ mask.map fun accent => if accent then 'x' else '-') : Text.isBlank c = false := by
  obtain ⟨accent, -, rfl⟩ := List.mem_map.1 h
  cases accent <;> decide

theorem isBlank_of_mem_accentKey {c : Char} (h : c ∈ accentKey.toList) : Text.isBlank c = false := by
  have hall : accentKey.toList.all (Text.isBlank · == false) = true := by decide
  exact beq_iff_eq.1 (List.all_eq_true.1 hall c h)

theorem readLine_accentLine {mask : List Bool} (hne : mask ≠ []) :
    readLine (accentLine mask) = .ok (some (.accents mask)) := by
  have hsymbols : (mask.map fun accent => if accent then 'x' else '-') ≠ [] := mt List.map_eq_nil_iff.1 hne
  have hwords := Text.splitBlanks_pair (show accentKey.toList ≠ [] by decide) hsymbols
    (fun c hc => isBlank_of_mem_accentKey hc) fun c hc => isBlank_of_mem_symbols hc
  have haccent : Text.isWord accentKey accentKey.toList = true := by decide +kernel
  unfold readLine accentLine
  rw [hwords]
  simp only [haccent, if_true, accentMask_symbols]

/-! ## There and back -/

theorem readLines_of_forall₂ {lines : List (List Char)} {entries : List Entry}
    (h : List.Forall₂ (fun line entry => readLine line = .ok (some entry)) lines entries) (number : Nat) :
    readLines number lines = ([], .ok entries) := by
  induction h generalizing number with
  | nil => rfl
  | cons hline _ ih =>
    rw [readLines, hline]
    simp only [ih]
    rfl

namespace Pattern

variable {p : Pattern}

/-- the hit lines among the entries of a pattern, which are too short to be cut -/
theorem hits_entries {n : Nat} (h : ∀ hit ∈ p.hits, hit.steps.length = n) :
    (p.entries.filterMap fun
      | .hit line => some { line with steps := line.steps.take n }
      | .accents _ => none) = p.hits := by
  have hcut (hit : Hit) (hhit : hit ∈ p.hits) : { hit with steps := hit.steps.take n } = hit := by
    rw [List.take_of_length_le (h hit hhit).le]
  have hmasks (l : List (List Bool)) : ((l.map Entry.accents).filterMap fun
      | .hit line => some { line with steps := line.steps.take n }
      | .accents _ => none) = [] := by
    rw [List.filterMap_map]
    exact List.filterMap_eq_nil_iff.2 fun _ _ => rfl
  have hentries : p.entries =
      p.hits.map Entry.hit ++ (if p.accents = [] then [] else [p.accents]).map Entry.accents := by
    unfold entries
    split <;> rfl
  rw [hentries, List.filterMap_append, hmasks, List.append_nil, List.filterMap_map]
  calc p.hits.filterMap _ = p.hits.filterMap fun hit => some { hit with steps := hit.steps.take n } := rfl
    _ = p.hits.map fun hit => { hit with steps := hit.steps.take n } := congrFun List.filterMap_eq_map' _
    _ = p.hits := (List.map_congr_left hcut).trans (List.map_id _)

/-- the mask among the entries of a pattern -/
theorem masks_entries : ((p.entries.filterMap fun
      | .accents mask => some mask
      | .hit _ => none).getLast?.getD []) = p.accents := by
  have hhits : ((p.hits.map Entry.hit).filterMap fun
      | .accents mask => some mask
      | .hit _ => none) = [] := by
    rw [List.filterMap_map]
    exact List.filterMap_eq_nil_iff.2 fun _ _ => rfl
  rw [entries, List.filterMap_append, hhits, List.nil_append]
  split
  · rename_i hnil
    exact hnil.symm
  · rfl

theorem minimum_entries {n : Nat} (hne : p.hits ≠ [] ∨ p.accents ≠ []) (hhits : ∀ hit ∈ p.hits, hit.steps.length = n)
    (haccents : p.accents = [] ∨ p.accents.length = n) : (p.entries.map Entry.length).min?.getD 0 = n := by
  have hall : ∀ length ∈ p.entries.map Entry.length, length = n := by
    intro length hlength
    obtain ⟨entry, hentry, rfl⟩ := List.mem_map.1 hlength
    rcases List.mem_append.1 hentry with hentry | hentry
    · obtain ⟨hit, hhit, rfl⟩ := List.mem_map.1 hentry
      exact hhits hit hhit
    · split at hentry
      · exact (List.not_mem_nil hentry).elim
      · rename_i haccent
        rw [List.mem_singleton.1 hentry]
        exact haccents.resolve_left haccent
  have hnonempty : p.entries.map Entry.length ≠ [] := by
    unfold entries
    rcases hne with hne | hne
    · simp [hne]
    · simp [hne]
  obtain ⟨length, hlength⟩ := List.exists_mem_of_ne_nil _ hnonempty
  have hmem : n ∈ p.entries.map Entry.length := hall length hlength ▸ hlength
  rw [List.min?_eq_some_iff.2 ⟨hmem, fun other hother => (hall other hother).ge⟩]
  rfl

/-- the lines and the mask of a well-formed pattern make it again -/
theorem assemble_entries (hpos : 1 ≤ p.length) (hne : p.hits ≠ [] ∨ p.accents ≠ [])
    (hhits : ∀ hit ∈ p.hits, (hit.steps.length : Int) = p.length)
    (haccents : p.accents = [] ∨ (p.accents.length : Int) = p.length) : assemble p.entries = p := by
  have hhits' : ∀ hit ∈ p.hits, hit.steps.length = p.length.toNat := by
    intro hit hhit
    have := hhits hit hhit
    omega
  have haccents' : p.accents = [] ∨ p.accents.length = p.length.toNat := haccents.imp_right fun h => by omega
  have hmin := minimum_entries hne hhits' haccents'
  have hcut : p.accents.take p.length.toNat = p.accents := by
    rcases haccents' with h | h
    · rw [h, List.take_nil]
    · rw [List.take_of_length_le h.le]
  have hlength : ((p.length.toNat : Nat) : Int) = p.length := Int.toNat_of_nonneg (by omega)
  unfold assemble
  rw [hmin]
  show Pattern.mk _ _ _ = Pattern.mk _ _ _
  rw [hlength]
  exact congrArg₂ (Pattern.mk · · p.length) (hits_entries hhits') ((congrArg (List.take _) masks_entries).trans hcut)

end Pattern

theorem not_isLineBreak {c : Char} (h : Text.isBlank c = false) : Text.isLineBreak c = false := by
  rw [Bool.eq_false_iff] at h ⊢
  exact mt Text.isBlank_of_isLineBreak h

/-- two words with a blank between them stand on one line -/
theorem not_isLineBreak_of_pair {word other : List Char} (h : ∀ c ∈ word, Text.isBlank c = false)
    (h' : ∀ c ∈ other, Text.isBlank c = false) : ∀ c ∈ word ++ ' ' :: other, Text.isLineBreak c = false := by
  intro c hc
  rcases List.mem_append.1 hc with hc | hc
  · exact not_isLineBreak (h c hc)
  · rcases List.mem_cons.1 hc with rfl | hc
    · decide
    · exact not_isLineBreak (h' c hc)

theorem not_isLineBreak_of_mem_lines {p : Pattern} (h : ∀ hit ∈ p.hits, ∀ c ∈ hit.steps, Text.isBlank c = false) :
    ∀ line ∈ p.lines, ∀ c ∈ line, Text.isLineBreak c = false := by
  intro line hline
  rcases List.mem_append.1 hline with hline | hline
  · obtain ⟨hit, hhit, rfl⟩ := List.mem_map.1 hline
    exact not_isLineBreak_of_pair (fun c hc => isBlank_of_mem_toString hc) (h hit hhit)
  · split at hline
    · exact (List.not_mem_nil hline).elim
    · rw [List.mem_singleton.1 hline]
      exact not_isLineBreak_of_pair (fun c hc => isBlank_of_mem_accentKey hc) fun c hc => isBlank_of_mem_symbols hc

/-- a well-formed pattern is written, and read again without a warning -/
theorem parse_format {p : Pattern} (h : p.WellFormed) :
    ∃ text, p.format = .ok text ∧ Pattern.parse text = ⟨[], .ok p⟩ := by
  rcases h with ⟨hhits, haccents, hlength⟩ | ⟨hpos, hne, hhits, haccents⟩
  · obtain ⟨hits, accents, length⟩ := p
    obtain ⟨rfl, rfl, rfl⟩ : hits = [] ∧ accents = [] ∧ length = 0 := ⟨hhits, haccents, hlength⟩
    exact ⟨[], rfl, rfl⟩
  have hword (hit : Hit) (hhit : hit ∈ p.hits) : hit.steps ≠ [] := by
    have := (hhits hit hhit).1
    rw [← List.length_pos_iff]
    omega
  have hread : List.Forall₂ (fun line entry => readLine line = .ok (some entry)) p.lines p.entries := by
    unfold Pattern.lines Pattern.entries
    refine List.rel_append ?_ ?_
    · rw [List.forall₂_map_left_iff, List.forall₂_map_right_iff]
      exact List.forall₂_same.2 fun hit hhit =>
        readLine_line (hhits hit hhit).2.2 (hword hit hhit) (hhits hit hhit).2.1
    · split
      · exact .nil
      · rename_i haccent
        exact .cons (readLine_accentLine haccent) .nil
  have hlines := not_isLineBreak_of_mem_lines fun hit hhit => (hhits hit hhit).2.1
  refine ⟨_, format_eq fun hit hhit => (hhits hit hhit).2.2, ?_⟩
  unfold Pattern.parse
  rw [Text.splitLines_flatMap hlines, readLines_of_forall₂ hread]
  show Pattern.Reading.mk [] (.ok (Pattern.assemble p.entries)) = _
  rw [Pattern.assemble_entries hpos hne (fun hit hhit => (hhits hit hhit).1) haccents]

/-- **The patterns of texts.** A pattern is read from some text if and only if it is well-formed, and if and only if it
is read again from the text that is written for it; so writing and reading again leaves what was read as it is. -/
theorem parse_format_roundtrip (p : Pattern) :
    ((∃ content, (Pattern.parse content).result = .ok p) ↔ p.WellFormed) ∧
      ((∃ text, p.format = .ok text ∧ (Pattern.parse text).result = .ok p) ↔ p.WellFormed) ∧
      ∀ content, (Pattern.parse content).result = .ok p →
        ∃ text, p.format = .ok text ∧ Pattern.parse text = ⟨[], .ok p⟩ := by
  refine ⟨⟨?_, ?_⟩, ⟨?_, ?_⟩, fun content h => parse_format (wellFormed_of_parse h)⟩
  · rintro ⟨content, h⟩
    exact wellFormed_of_parse h
  · intro h
    obtain ⟨text, -, hparse⟩ := parse_format h
    exact ⟨text, by rw [hparse]⟩
  · rintro ⟨text, -, h⟩
    exact wellFormed_of_parse h
  · intro h
    obtain ⟨text, hformat, hparse⟩ := parse_format h
    exact ⟨text, hformat, by rw [hparse]⟩

end Drumline
