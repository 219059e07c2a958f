/-
The ending of a file name, by a search and by a place. A track is named after its file by a search from the left, for a
dot and at least one character behind it, all up to the end of the name and none of them a dot or a slash:
`\.[^/.]+$`. A MIDI file is named after it by the place of the last dot, which counts unless it is the first or the last
character. Both are written out here as they are looked up (`removeEndings`, `replaceSuffix`), and are what the names
of tracks and files are made with.

Everything rests on the last dot (`exists_last`). No search succeeds before it, since there is a dot behind, and one
that succeeds takes all of the name: a line break at the end is a character like any other, and never left over.

Main result: `outputName_eq_iff`, the two agree on all names of files but those that start with their only dot.
-/
import Drumline.Proofs.FileName.Suffix
import Mathlib.Data.List.TakeWhile
import Mathlib.Tactic

namespace Drumline

namespace FileName

/-! ## Model -/

/-- whether an ending may contain a character -/
def inEnding (c : Char) : Bool := c ≠ '.' && c ≠ '/'

/-- whether a text is at its end, as it also is in front of a line break that is its last character -/
def atEnd (text : List Char) : Bool := text == [] || text == ['\n']

/-- What is left behind a run of characters of an ending, as long as it can be for its end to be the end of the text. A
shorter run is tried after all longer ones. -/
def afterRun? : List Char → Option (List Char)
  | [] => some []
  | c :: rest =>
    (if inEnding c then afterRun? rest else none) <|> if atEnd (c :: rest) then some (c :: rest) else none

/-- what is left behind an ending that a text starts with -/
def afterEnding? : List Char → Option (List Char)
  | '.' :: c :: rest => if inEnding c then afterRun? rest else none
  | _ => none

/-- the place of the last dot -/
def lastDot? : FileName → Option Nat
  | [] => none
  | c :: rest =>
    match lastDot? rest with
    | some place => some (place + 1)
    | none => if c = '.' then some 0 else none

/-- what a name has from its last dot on, if that is neither its first nor its last character -/
def suffixOf (name : FileName) : List Char :=
  match lastDot? name with
  | some place => if 0 < place ∧ place < name.length - 1 then name.drop place else []
  | none => []

/-- a name with another suffix, which is added if it has none -/
def replaceSuffix (name : FileName) (suffix : List Char) : FileName :=
  name.take (name.length - (suffixOf name).length) ++ suffix

/-- whether a name starts with its only dot, with something behind it -/
def IsDotFile (name : FileName) : Prop :=
  name.head? = some '.' ∧ name.tail ≠ [] ∧ '.' ∉ name.tail

instance (name : FileName) : Decidable name.IsDotFile :=
  inferInstanceAs (Decidable (_ ∧ _ ∧ _))

/-! ## The last dot -/

/-- a name without a mark, or one at its last mark -/
theorem exists_last (mark : Char) (name : FileName) :
    mark ∉ name ∨ ∃ stem ending, mark ∉ ending ∧ name = stem ++ mark :: ending := by
  by_cases h : mark ∈ name
  · obtain ⟨ending, stem, hname, hending⟩ := List.eq_append_cons_of_mem (List.mem_reverse.2 h)
    refine .inr ⟨stem.reverse, ending.reverse, mt List.mem_reverse.1 hending, ?_⟩
    rw [← List.reverse_reverse name, hname, List.reverse_append, List.reverse_cons, List.append_assoc]
    rfl
  · exact .inl h

/-- a name read from its end up to a mark -/
theorem while_reverse_append {p : Char → Bool} {mark : Char} (hmark : p mark = false) (stem : FileName)
    {ending : FileName} (h : ∀ c ∈ ending, p c = true) :
    (stem ++ mark :: ending).reverse.takeWhile p = ending.reverse ∧
      (stem ++ mark :: ending).reverse.dropWhile p = mark :: stem.reverse := by
  have hreverse : (stem ++ mark :: ending).reverse = ending.reverse ++ mark :: stem.reverse := by simp
  have hall : ∀ c ∈ ending.reverse, p c = true := fun c hc => h c (List.mem_reverse.1 hc)
  have hstops : ¬p mark = true := Bool.eq_false_iff.1 hmark
  rw [hreverse, List.takeWhile_append_of_pos hall, List.dropWhile_append_of_pos hall,
    List.takeWhile_cons_of_neg hstops, List.dropWhile_cons_of_neg hstops, List.append_nil]
  exact ⟨rfl, rfl⟩

variable {name stem ending : FileName}

/-! ## Searching -/

/-- a run goes up to the end of the text, or there is none -/
theorem afterRun?_eq (text : List Char) : afterRun? text = if text.all inEnding then some [] else none := by
  induction text with
  | nil => rfl
  | cons c rest ih =>
    by_cases hc : inEnding c = true
    · by_cases hrest : rest.all inEnding = true
      · simp [afterRun?, ih, hc, hrest]
      · have hnil : rest ≠ [] := by
          rintro rfl
          exact hrest rfl
        simp [afterRun?, ih, hc, hrest, atEnd, hnil]
    · have hbreak : c ≠ '\n' := by
        rintro rfl
        exact hc rfl
      simp [afterRun?, hc, atEnd, hbreak]

theorem all_inEnding_iff {text : List Char} : text.all inEnding = true ↔ '.' ∉ text ∧ '/' ∉ text := by
  simp only [List.all_eq_true, inEnding, ne_eq, Bool.and_eq_true, decide_eq_true_eq, forall_and, List.forall_mem_ne']

theorem afterEnding?_of_ne {c : Char} (h : c ≠ '.') (rest : List Char) : afterEnding? (c :: rest) = none := by
  unfold afterEnding?
  split
  · rename_i heq
    exact (h (List.cons.inj heq).1).elim
  · rfl

/-- an ending that a text starts with is all of the text -/
theorem afterEnding?_dot (rest : List Char) :
    afterEnding? ('.' :: rest) = if rest ≠ [] ∧ '.' ∉ rest ∧ '/' ∉ rest then some [] else none := by
  cases rest with
  | nil => rfl
  | cons c rest =>
    have hcons : afterEnding? ('.' :: c :: rest) = if inEnding c then afterRun? rest else none := rfl
    simp only [hcons, afterRun?_eq, ← all_inEnding_iff, List.all_cons, Bool.and_eq_true, ne_eq, List.cons_ne_nil,
      not_false_eq_true, true_and, ite_and]

theorem eq_nil_of_afterEnding? {text left : List Char} (h : afterEnding? text = some left) : left = [] := by
  cases text with
  | nil => cases h
  | cons c rest =>
    by_cases hc : c = '.'
    · rw [hc, afterEnding?_dot] at h
      exact (Option.some.inj (Option.ite_none_right_eq_some.1 h).2).symm
    · rw [afterEnding?_of_ne hc] at h
      cases h

/-- a name without its endings, which are looked for from the left -/
def removeEndings : FileName → FileName
  | [] => []
  | c :: rest =>
    match _ : afterEnding? (c :: rest) with
    | some left => removeEndings left
    | none => c :: removeEndings rest
termination_by name => name.length
decreasing_by
  · rename_i hleft
    rw [eq_nil_of_afterEnding? hleft]
    exact Nat.succ_pos _
  · exact Nat.lt_succ_self _

theorem removeEndings_cons {c : Char} {rest : FileName} (h : afterEnding? (c :: rest) = none) :
    removeEndings (c :: rest) = c :: removeEndings rest := by
  rw [removeEndings]
  split
  · rename_i hsome
    rw [h] at hsome
    cases hsome
  · rfl

theorem removeEndings_of_ending {c : Char} {rest : FileName} (h : afterEnding? (c :: rest) = some []) :
    removeEndings (c :: rest) = [] := by
  rw [removeEndings]
  split
  · rename_i hsome
    rw [h] at hsome
    cases hsome
    rw [removeEndings]
  · rename_i hnone
    rw [h] at hnone
    cases hnone

theorem removeEndings_of_not_mem (h : '.' ∉ name) : removeEndings name = name := by
  induction name with
  | nil => rw [removeEndings]
  | cons c rest ih =>
    obtain ⟨hc, hrest⟩ := not_or.1 (mt List.mem_cons.2 h)
    rw [removeEndings_cons (afterEnding?_of_ne (Ne.symm hc) rest), ih hrest]

/-- a search that succeeds does so at the last dot -/
theorem removeEndings_append (stem : FileName) (h : '.' ∉ ending) : removeEndings (stem ++ '.' :: ending) =
    if ending ≠ [] ∧ '/' ∉ ending then stem else stem ++ '.' :: ending := by
  induction stem with
  | nil =>
    have hsearch := afterEnding?_dot ending
    simp only [h, not_false_eq_true, true_and] at hsearch
    rw [List.nil_append]
    split
    · rename_i hending
      rw [if_pos hending] at hsearch
      exact removeEndings_of_ending hsearch
    · rename_i hending
      rw [if_neg hending] at hsearch
      rw [removeEndings_cons hsearch, removeEndings_of_not_mem h]
  | cons c stem ih =>
    have hsearch : afterEnding? (c :: (stem ++ '.' :: ending)) = none := by
      by_cases hc : c = '.'
      · rw [hc, afterEnding?_dot, if_neg]
        exact fun h => h.2.1 (List.mem_append_right _ List.mem_cons_self)
      · exact afterEnding?_of_ne hc _
    rw [List.cons_append, removeEndings_cons hsearch, ih]
    split
    · rfl
    · rfl

/-- read from its end, a name has no extension unless the first character that is in none is a dot -/
theorem stripExtension_of_head_ne (h : (name.reverse.dropWhile inEnding).head? ≠ some '.') :
    name.stripExtension = name := by
  unfold stripExtension
  simp only
  split
  · rename_i heq
    exact (h (congrArg List.head? heq)).elim
  · rfl

theorem stripExtension_of_not_mem (h : '.' ∉ name) : name.stripExtension = name := by
  refine stripExtension_of_head_ne fun hhead => h (List.mem_reverse.1 ?_)
  exact (List.dropWhile_sublist inEnding).subset (List.mem_of_mem_head? hhead)

theorem stripExtension_append (stem : FileName) (h : '.' ∉ ending) : stripExtension (stem ++ '.' :: ending) =
    if ending ≠ [] ∧ '/' ∉ ending then stem else stem ++ '.' :: ending := by
  rcases exists_last '/' ending with hslash | ⟨front, back, hback, rfl⟩
  · obtain ⟨htake, hdrop⟩ := while_reverse_append (show inEnding '.' = false from rfl) stem
      (List.all_eq_true.1 (all_inEnding_iff.2 ⟨h, hslash⟩))
    unfold stripExtension
    have htake : (stem ++ '.' :: ending).reverse.takeWhile (fun c => c ≠ '.' && c ≠ '/') = ending.reverse := htake
    have hdrop : (stem ++ '.' :: ending).reverse.dropWhile (fun c => c ≠ '.' && c ≠ '/') = '.' :: stem.reverse := hdrop
    simp only [htake, hdrop, List.reverse_eq_nil_iff, List.reverse_reverse, hslash, not_false_eq_true, and_true,
      ne_eq, ite_not]
  · -- read from the end, the slash comes before the dot
    have hdot : '.' ∉ back := fun hmem => h (List.mem_append_right _ (List.mem_cons_of_mem _ hmem))
    obtain ⟨-, hdrop⟩ := while_reverse_append (show inEnding '/' = false from rfl) (stem ++ '.' :: front)
      (List.all_eq_true.1 (all_inEnding_iff.2 ⟨hdot, hback⟩))
    rw [List.append_assoc, List.cons_append] at hdrop
    rw [if_neg fun hending => hending.2 (List.mem_append_right _ List.mem_cons_self)]
    refine stripExtension_of_head_ne ?_
    rw [hdrop]
    exact fun hhead => absurd (Option.some.inj hhead) (by decide)

/-- a track is named by the search -/
theorem stripExtension_eq_removeEndings (name : FileName) : name.stripExtension = name.removeEndings := by
  rcases exists_last '.' name with h | ⟨stem, ending, h, rfl⟩
  · rw [stripExtension_of_not_mem h, removeEndings_of_not_mem h]
  · rw [stripExtension_append stem h, removeEndings_append stem h]

/-! ## Places -/

theorem lastDot?_of_not_mem (h : '.' ∉ name) : lastDot? name = none := by
  induction name with
  | nil => rfl
  | cons c rest ih =>
    obtain ⟨hc, hrest⟩ := not_or.1 (mt List.mem_cons.2 h)
    rw [lastDot?, ih hrest]
    exact if_neg (Ne.symm hc)

theorem lastDot?_append (stem : FileName) (h : '.' ∉ ending) : lastDot? (stem ++ '.' :: ending) = some stem.length := by
  induction stem with
  | nil =>
    rw [List.nil_append, lastDot?, lastDot?_of_not_mem h]
    rfl
  | cons c stem ih =>
    rw [List.cons_append, lastDot?, ih]
    rfl

theorem replaceSuffix_of_not_mem (h : '.' ∉ name) (suffix : List Char) :
    name.replaceSuffix suffix = name ++ suffix := by
  rw [replaceSuffix, suffixOf, lastDot?_of_not_mem h]
  exact congrArg (· ++ suffix) List.take_length

theorem suffixOf_append (stem : FileName) (h : '.' ∉ ending) :
    suffixOf (stem ++ '.' :: ending) = if stem ≠ [] ∧ ending ≠ [] then '.' :: ending else [] := by
  have hplace : (0 < stem.length ∧ stem.length < (stem ++ '.' :: ending).length - 1) ↔ stem ≠ [] ∧ ending ≠ [] := by
    rw [List.length_append, List.length_cons, ← List.length_pos_iff, ← List.length_pos_iff]
    omega
  rw [suffixOf, lastDot?_append stem h]
  simp only [hplace, List.drop_left]

theorem replaceSuffix_append (stem : FileName) (h : '.' ∉ ending) (suffix : List Char) :
    replaceSuffix (stem ++ '.' :: ending) suffix =
      if stem ≠ [] ∧ ending ≠ [] then stem ++ suffix else stem ++ '.' :: ending ++ suffix := by
  rw [replaceSuffix, suffixOf_append stem h]
  split
  · rw [List.length_append, Nat.add_sub_cancel, List.take_left]
  · exact congrArg (· ++ suffix) List.take_length

theorem withSuffix_of_not_mem (h : '.' ∉ name) (suffix : List Char) : name.withSuffix suffix = name ++ suffix := by
  have hnone : name.reverse.dropWhile (· ≠ '.') = [] := by
    refine List.dropWhile_eq_nil_iff.2 fun c hc => decide_eq_true ?_
    rintro rfl
    exact h (List.mem_reverse.1 hc)
  unfold withSuffix
  simp only [hnone]

theorem withSuffix_append (stem : FileName) (h : '.' ∉ ending) (suffix : List Char) :
    withSuffix (stem ++ '.' :: ending) suffix =
      if stem ≠ [] ∧ ending ≠ [] then stem ++ suffix else stem ++ '.' :: ending ++ suffix := by
  have hall : ∀ c ∈ ending, decide (c ≠ '.') = true := by
    intro c hc
    refine decide_eq_true ?_
    rintro rfl
    exact h hc
  obtain ⟨htake, hdrop⟩ := while_reverse_append (decide_eq_false (not_not.2 rfl)) stem hall
  unfold withSuffix
  simp only [htake, hdrop, List.reverse_eq_nil_iff, List.reverse_reverse, ne_eq, ← not_or, or_comm, ite_not]

/-- a MIDI file is named by the place -/
theorem withSuffix_eq_replaceSuffix (name : FileName) (suffix : List Char) :
    name.withSuffix suffix = name.replaceSuffix suffix := by
  rcases exists_last '.' name with h | ⟨stem, ending, h, rfl⟩
  · rw [withSuffix_of_not_mem h, replaceSuffix_of_not_mem h]
  · rw [withSuffix_append stem h, replaceSuffix_append stem h]

/-! ## Dot files -/

theorem isDotFile_append (stem : FileName) (h : '.' ∉ ending) :
    IsDotFile (stem ++ '.' :: ending) ↔ stem = [] ∧ ending ≠ [] := by
  cases stem with
  | nil => simp [IsDotFile, h]
  | cons c stem => simp [IsDotFile]

theorem not_isDotFile_of_not_mem (h : '.' ∉ name) : ¬name.IsDotFile :=
  fun hfile => h (List.mem_of_mem_head? hfile.1)

/-- the name of a dot file is an extension for the search, and has no suffix for the place of its dot -/
theorem IsDotFile.names (h : name.IsDotFile) (hslash : '/' ∉ name) (suffix : List Char) :
    name.stripExtension = [] ∧ name.withSuffix suffix = name ++ suffix := by
  rcases exists_last '.' name with hnone | ⟨stem, ending, hending, rfl⟩
  · exact (not_isDotFile_of_not_mem hnone h).elim
  · obtain ⟨rfl, hne⟩ := (isDotFile_append stem hending).1 h
    have hslash : '/' ∉ ending := fun hmem => hslash (List.mem_append_right _ (List.mem_cons_of_mem _ hmem))
    rw [stripExtension_append [] hending, withSuffix_append [] hending, if_pos ⟨hne, hslash⟩, if_neg fun h => h.1 rfl]
    exact ⟨rfl, rfl⟩

/-- any other name has the extension for the search that it has by the place of its last dot -/
theorem withSuffix_of_not_isDotFile (h : ¬name.IsDotFile) (hslash : '/' ∉ name) (suffix : List Char) :
    name.withSuffix suffix = name.stripExtension ++ suffix := by
  rcases exists_last '.' name with hnone | ⟨stem, ending, hending, rfl⟩
  · rw [stripExtension_of_not_mem hnone, withSuffix_of_not_mem hnone]
  · rw [isDotFile_append stem hending] at h
    have hslash : '/' ∉ ending := fun hmem => hslash (List.mem_append_right _ (List.mem_cons_of_mem _ hmem))
    rw [stripExtension_append stem hending, withSuffix_append stem hending]
    by_cases hne : ending = []
    · rw [if_neg fun h => h.2 hne, if_neg fun h => h.1 hne]
    · rw [if_pos ⟨fun hnil => h ⟨hnil, hne⟩, hne⟩, if_pos ⟨hne, hslash⟩]

end FileName

/-! ## Paths -/

theorem Text.splitOn_of_not_mem {mark : Char} {text : List Char} (h : mark ∉ text) : splitOn mark text = [text] := by
  induction text with
  | nil => rfl
  | cons c rest ih =>
    obtain ⟨hc, hrest⟩ := not_or.1 (mt List.mem_cons.2 h)
    rw [splitOn, if_neg (Ne.symm hc), ih hrest]

namespace Path

/-- a name without a slash is read as it is, unless it leads nowhere -/
theorem read_of_not_mem {name : FileName} (hslash : '/' ∉ name) (hidle : isIdle name = false) :
    read name = ⟨.workingDirectory, [name]⟩ := by
  have horigin : originOf name = .workingDirectory := by
    unfold originOf
    split
    · exact (hslash List.mem_cons_self).elim
    · exact (hslash List.mem_cons_self).elim
    · exact (hslash List.mem_cons_self).elim
    · rfl
  have htext : ofText name = ⟨.workingDirectory, [name]⟩ := by
    unfold ofText
    simp only [horigin]
    exact congrArg (Path.mk .workingDirectory) (Text.splitOn_of_not_mem hslash)
  unfold read
  rw [htext]
  simp [hidle]

end Path

/-- **Names of tracks and files.** The extension of a track's name is what the search finds, and the suffix of a MIDI
file's name is what the place of the last dot says. They agree on a name of a file, so that the MIDI file is named as
the track is, exactly if it is not that of a dot file. For a dot file the track has no name, and the MIDI file has all
of the name and the suffix. -/
theorem outputName_eq_iff :
    (∀ name : FileName, name.stripExtension = name.removeEndings) ∧
    (∀ (name : FileName) (suffix : List Char), name.withSuffix suffix = name.replaceSuffix suffix) ∧
    ∀ (name : FileName) (directory : Option Path), '/' ∉ name → name ≠ [] → name ≠ ['.'] →
      ∃ output, (Path.read name).outputPath directory = .ok output ∧
        (output.name? = some (name.stripExtension ++ FileName.midiSuffix) ↔ ¬name.IsDotFile) ∧
        (name.IsDotFile → name.stripExtension = [] ∧ output.name? = some (name ++ FileName.midiSuffix)) := by
  refine ⟨FileName.stripExtension_eq_removeEndings, FileName.withSuffix_eq_replaceSuffix, ?_⟩
  intro name directory hslash hnil hdot
  have hidle : Path.isIdle name = false := by simp [Path.isIdle, hnil, hdot]
  have houtput : (Path.read name).outputPath directory =
      .ok ((directory.getD ⟨.workingDirectory, []⟩).child (name.withSuffix FileName.midiSuffix)) := by
    rw [Path.read_of_not_mem hslash hidle]
    rfl
  refine ⟨_, houtput, ?_⟩
  rw [Path.name?_child, Option.some.injEq, Option.some.injEq]
  refine ⟨⟨fun h hfile => ?_, fun h => FileName.withSuffix_of_not_isDotFile h hslash _⟩, fun hfile => ?_⟩
  · obtain ⟨hstrip, hsuffix⟩ := hfile.names hslash FileName.midiSuffix
    rw [hsuffix, hstrip, List.append_cancel_right_eq] at h
    exact hnil h
  · exact hfile.names hslash FileName.midiSuffix

/-! ## A dot file -/

/-- the pattern file of the suffix alone, and one whose name ends in a line break -/
theorem outputName_eq_iff_suffix :
    (∃ output, (Path.read ".pat".toList).outputPath none = .ok output ∧ output.name? = some ".pat.mid".toList ∧
      FileName.stripExtension ".pat".toList = []) ∧
    ∃ output, (Path.read "a.b\n".toList).outputPath none = .ok output ∧ output.name? = some "a.mid".toList := by
  constructor
  · obtain ⟨output, houtput, -, hfile⟩ :=
      outputName_eq_iff.2.2 ".pat".toList none (by decide) (by decide) (by decide)
    obtain ⟨hstrip, hname⟩ := hfile (by decide)
    exact ⟨output, houtput, hname, hstrip⟩
  · obtain ⟨output, houtput, hiff, -⟩ := outputName_eq_iff.2.2 "a.b\n".toList none (by decide) (by decide) (by decide)
    exact ⟨output, houtput, hiff.2 (by decide)⟩

end Drumline
