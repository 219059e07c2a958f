/-
Texts that are put together. A line feed between two texts keeps their lines apart, whatever the first one ends with, so
the lines of both are read one after the other (`readLines_append`), and those of the second only have other numbers
(`readLines_shift`).

`Pattern.merge` is what becomes of two patterns: the shorter one cuts both, unless it is empty, and the mask of the
second counts if there is one. That an early cut and a late one are the same is `assemble_append`.

Main result: `parse_merge`, the pattern of two texts is the merge of their patterns.
-/
import Drumline.Proofs.Pattern.RoundTrip
import Mathlib.Order.WithBot

namespace Drumline

/-! ## Model -/

def Hit.cut (n : Nat) (hit : Hit) : Hit := { hit with steps := hit.steps.take n }

namespace Pattern

/-- whether a pattern has neither lines nor a mask -/
def isEmpty (p : Pattern) : Bool := p.hits.isEmpty && p.accents.isEmpty

/-- how long another pattern can be beside this one; an empty pattern leaves that open -/
def bound (p : Pattern) : WithTop Int := if p.isEmpty then ⊤ else (p.length : WithTop Int)

/-- the length of two patterns together; nought if both are empty -/
def sharedLength (p q : Pattern) : Int := (min p.bound q.bound).untopD 0

/-- two patterns as one, cut to the length that they share -/
def merge (p q : Pattern) : Pattern :=
  let length := sharedLength p q
  { hits := (p.hits ++ q.hits).map (Hit.cut length.toNat)
    accents := (if q.accents = [] then p.accents else q.accents).take length.toNat
    length := length }

end Pattern

/-- a skipped line with some lines more before it -/
def SkippedLine.shift (n : Nat) (skipped : SkippedLine) : SkippedLine := { skipped with line := skipped.line + n }

def Entry.hit? : Entry → Option Hit
  | .hit line => some line
  | .accents _ => none

def Entry.mask? : Entry → Option (List Bool)
  | .hit _ => none
  | .accents mask => some mask

/-- the length of the shortest of some entries -/
def shortest (entries : List Entry) : WithTop Int :=
  entries.foldr (fun entry least => min (entry.length : WithTop Int) least) ⊤

/-! ## Lines -/

/-- lines are read one after the other, up to a number that cannot be read -/
theorem readLines_append {number : Nat} {lines : List (List Char)} {skipped : List SkippedLine} {entries : List Entry}
    (h : readLines number lines = (skipped, .ok entries)) (others : List (List Char)) :
    readLines number (lines ++ others) =
      (skipped ++ (readLines (number + lines.length) others).1,
        (readLines (number + lines.length) others).2.map (entries ++ ·)) := by
  induction lines generalizing number skipped entries with
  | nil =>
    cases h
    cases hothers : (readLines number others).2 <;> simp [hothers, Except.map, Prod.ext_iff]
  | cons line lines ih =>
    have hnumber : number + (line :: lines).length = number + 1 + lines.length := by
      rw [List.length_cons]
      omega
    rw [hnumber]
    rw [List.cons_append, readLines]
    rw [readLines] at h
    cases hline : readLine line with
    | error error =>
      cases error with
      | unreadable error =>
        rw [hline] at h
        cases h
      | unknown key =>
        rw [hline] at h
        obtain ⟨rfl, hrest⟩ := Prod.mk.inj h
        have := ih (Prod.ext rfl hrest)
        simp only [this]
        simp
    | ok entry =>
      rw [hline] at h
      obtain ⟨rfl, hrest⟩ := Prod.mk.inj h
      obtain ⟨later, hlater, rfl⟩ := map_eq_ok.1 hrest
      have := ih (Prod.ext rfl hlater)
      simp only [this]
      cases (readLines (number + 1 + lines.length) others).2 <;> simp [Except.map]

/-- what is read of lines does not depend on their numbers, which only stand in the warnings -/
theorem readLines_shift (number n : Nat) (lines : List (List Char)) :
    readLines (number + n) lines =
      ((readLines number lines).1.map (SkippedLine.shift n), (readLines number lines).2) := by
  induction lines generalizing number with
  | nil => rfl
  | cons line lines ih =>
    have hnext : number + n + 1 = number + 1 + n := by omega
    rw [readLines, readLines]
    cases hline : readLine line with
    | error error =>
      cases error with
      | unreadable error => rfl
      | unknown key => simp only [hnext, ih, List.map_cons, SkippedLine.shift]
    | ok entry => simp only [hnext, ih]

/-- a line feed at the end of a text does not matter for what is read of it -/
theorem readLines_append_lineFeed (number : Nat) (text : List Char) :
    readLines number (Text.splitLines (text ++ ['\n'])) = readLines number (Text.splitLines text) := by
  have hempty (lines : List (List Char)) : readLines number (lines ++ [[]]) = readLines number lines := by
    induction lines generalizing number with
    | nil => rfl
    | cons line lines ih =>
      rw [List.cons_append, readLines, readLines]
      cases readLine line with
      | error error =>
        cases error with
        | unreadable error => rfl
        | unknown key => simp only [ih]
      | ok entry => simp only [ih]
  rcases Text.splitLines_append_singleton text with hlines | hlines
  · rw [hlines]
  · rw [hlines, hempty]

/-! ## Entries -/

theorem shortest_cons (entry : Entry) (entries : List Entry) :
    shortest (entry :: entries) = min ((entry.length : Int) : WithTop Int) (shortest entries) := rfl

theorem shortest_append (entries others : List Entry) :
    shortest (entries ++ others) = min (shortest entries) (shortest others) := by
  induction entries with
  | nil => simp [shortest]
  | cons entry entries ih =>
    rw [List.cons_append, shortest_cons, shortest_cons, ih, min_assoc]

theorem shortest_eq_top {entries : List Entry} : shortest entries = ⊤ ↔ entries = [] := by
  cases entries with
  | nil => simp [shortest]
  | cons entry entries => simp [shortest_cons]

theorem shortest_eq_elim (entries : List Entry) :
    shortest entries = (entries.map Entry.length).min?.elim ⊤ fun n => ((n : Int) : WithTop Int) := by
  induction entries with
  | nil => rfl
  | cons entry entries ih =>
    rw [shortest_cons, ih, List.map_cons, List.min?_cons]
    cases (entries.map Entry.length).min? with
    | none => simp
    | some n =>
      simp only [Option.elim_some]
      rw [← WithTop.coe_min]
      push_cast
      rfl

namespace Pattern

theorem length_eq_min? (entries : List Entry) :
    (assemble entries).length = (((entries.map Entry.length).min?.getD 0 : Nat) : Int) := rfl

theorem length_eq_shortest (entries : List Entry) : (assemble entries).length = (shortest entries).untopD 0 := by
  rw [length_eq_min?, shortest_eq_elim]
  cases (entries.map Entry.length).min? with
  | none => rfl
  | some n => rfl

theorem hits_eq_cut (entries : List Entry) :
    (assemble entries).hits = (entries.filterMap Entry.hit?).map (Hit.cut (assemble entries).length.toNat) := by
  rw [List.map_filterMap]
  apply List.filterMap_congr
  intro entry _
  cases entry <;> rfl

theorem accents_eq_take (entries : List Entry) :
    (assemble entries).accents =
      ((entries.filterMap Entry.mask?).getLast?.getD []).take (assemble entries).length.toNat := by
  apply congrArg fun masks : List (List Bool) => (masks.getLast?.getD []).take (assemble entries).length.toNat
  apply List.filterMap_congr
  intro entry _
  cases entry <;> rfl

/-- a line that is read is at least one step long -/
theorem length_pos_of_readLines {content : List Char} {skipped : List SkippedLine} {entries : List Entry}
    (h : readLines 1 (Text.splitLines content) = (skipped, .ok entries)) : ∀ entry ∈ entries, 0 < entry.length := by
  intro entry hentry
  obtain ⟨line, hline, hof⟩ := exists_of_mem_right (readLines_ok h).1 hentry
  have hsteps := (KeyedLine.steps_of_mem (List.mem_of_mem_filter hline)).1
  cases hof with
  | accents haccent =>
    rw [Entry.length, accentMask, List.length_map]
    exact List.length_pos_iff.2 hsteps
  | hit haccent hnote => exact List.length_pos_iff.2 hsteps

variable {entries others : List Entry}

theorem length_pos (hpos : ∀ entry ∈ entries, 0 < entry.length) (hne : entries ≠ []) :
    0 < (assemble entries).length := by
  cases hmin : (entries.map Entry.length).min? with
  | none => exact absurd (List.map_eq_nil_iff.1 (List.min?_eq_none_iff.1 hmin)) hne
  | some n =>
    obtain ⟨entry, hentry, hn⟩ := List.mem_map.1 (List.min?_eq_some_iff.1 hmin).1
    have := hpos entry hentry
    rw [length_eq_min?, hmin, Option.getD_some]
    omega

/-- assembled entries have a mask if one of them is one -/
theorem accents_assemble_eq_nil (hpos : ∀ entry ∈ entries, 0 < entry.length) :
    (assemble entries).accents = [] ↔ entries.filterMap Entry.mask? = [] := by
  rw [accents_eq_take]
  cases hlast : (entries.filterMap Entry.mask?).getLast? with
  | none => simp [List.getLast?_eq_none_iff.1 hlast]
  | some mask =>
    have hmem := List.mem_of_getLast? hlast
    obtain ⟨entry, hentry, hmask⟩ := List.mem_filterMap.1 hmem
    have hlong : 0 < mask.length := by
      cases entry with
      | hit line => cases hmask
      | accents other =>
        cases hmask
        exact hpos _ hentry
    have hlength := length_pos hpos (List.ne_nil_of_mem hentry)
    constructor
    · intro h
      have := congrArg List.length h
      rw [Option.getD_some, List.length_take, List.length_nil] at this
      omega
    · intro h
      rw [h] at hmem
      exact absurd hmem List.not_mem_nil

theorem isEmpty_assemble (hpos : ∀ entry ∈ entries, 0 < entry.length) :
    (assemble entries).isEmpty = true ↔ entries = [] := by
  rw [isEmpty, Bool.and_eq_true, List.isEmpty_iff, List.isEmpty_iff, accents_assemble_eq_nil hpos, hits_eq_cut,
    List.map_eq_nil_iff]
  constructor
  · rintro ⟨hhits, hmasks⟩
    cases entries with
    | nil => rfl
    | cons entry entries =>
      cases entry with
      | hit line => simp [Entry.hit?] at hhits
      | accents mask => simp [Entry.mask?] at hmasks
  · rintro rfl
    exact ⟨rfl, rfl⟩

theorem bound_assemble (hpos : ∀ entry ∈ entries, 0 < entry.length) : (assemble entries).bound = shortest entries := by
  rw [bound]
  split
  · rename_i hempty
    exact (shortest_eq_top.2 ((isEmpty_assemble hpos).1 hempty)).symm
  · rename_i hempty
    have hne : shortest entries ≠ ⊤ := mt (fun h => (isEmpty_assemble hpos).2 (shortest_eq_top.1 h)) hempty
    obtain ⟨n, hn⟩ := WithTop.ne_top_iff_exists.1 hne
    rw [length_eq_shortest, ← hn, WithTop.untopD_coe]

theorem sharedLength_le_left {p q : Pattern} (h : p.isEmpty = false) : sharedLength p q ≤ p.length := by
  have hbound : p.bound = (p.length : WithTop Int) := by simp [bound, h]
  rw [sharedLength, hbound]
  cases q.bound with
  | top => simp
  | coe n =>
    rw [← WithTop.coe_min, WithTop.untopD_coe]
    exact min_le_left _ _

theorem sharedLength_comm (p q : Pattern) : sharedLength p q = sharedLength q p := by
  rw [sharedLength, sharedLength, min_comm]

theorem sharedLength_assemble (hpos : ∀ entry ∈ entries, 0 < entry.length)
    (hothers : ∀ entry ∈ others, 0 < entry.length) :
    sharedLength (assemble entries) (assemble others) = (assemble (entries ++ others)).length := by
  rw [sharedLength, bound_assemble hpos, bound_assemble hothers, ← shortest_append, length_eq_shortest]

theorem cut_cut {m n : Nat} (h : m ≤ n) (hit : Hit) : (hit.cut n).cut m = hit.cut m := by
  simp [Hit.cut, List.take_take, h]

/-- to cut the lines of assembled entries further is to cut the lines of the entries at once -/
theorem map_cut_hits {n : Nat} (h : entries ≠ [] → n ≤ (assemble entries).length.toNat) :
    (assemble entries).hits.map (Hit.cut n) = (entries.filterMap Entry.hit?).map (Hit.cut n) := by
  rw [hits_eq_cut, List.map_map]
  apply List.map_congr_left
  intro hit hhit
  have hne : entries ≠ [] := by
    rintro rfl
    exact absurd hhit List.not_mem_nil
  exact cut_cut (h hne) hit

theorem take_accents {n : Nat} (h : entries ≠ [] → n ≤ (assemble entries).length.toNat) :
    (assemble entries).accents.take n = ((entries.filterMap Entry.mask?).getLast?.getD []).take n := by
  rw [accents_eq_take, List.take_take]
  by_cases hne : entries = []
  · simp [hne]
  · rw [min_eq_left (h hne)]

/-- **An early cut and a late one are the same.** Entries that are assembled at once make the merge of what they make in
two parts. -/
theorem assemble_append (hpos : ∀ entry ∈ entries, 0 < entry.length) (hothers : ∀ entry ∈ others, 0 < entry.length) :
    assemble (entries ++ others) = (assemble entries).merge (assemble others) := by
  have hlength := sharedLength_assemble hpos hothers
  have hleft : entries ≠ [] → (sharedLength (assemble entries) (assemble others)).toNat ≤
      (assemble entries).length.toNat := by
    intro hne
    have hempty := mt (isEmpty_assemble hpos).1 hne
    exact Int.toNat_le_toNat (sharedLength_le_left (Bool.eq_false_iff.2 hempty))
  have hright : others ≠ [] → (sharedLength (assemble entries) (assemble others)).toNat ≤
      (assemble others).length.toNat := by
    intro hne
    have hempty := mt (isEmpty_assemble hothers).1 hne
    rw [sharedLength_comm]
    exact Int.toNat_le_toNat (sharedLength_le_left (Bool.eq_false_iff.2 hempty))
  have hhits : (assemble (entries ++ others)).hits = ((assemble entries).merge (assemble others)).hits := by
    rw [hits_eq_cut, List.filterMap_append, List.map_append, ← hlength]
    simp only [merge, List.map_append, map_cut_hits hleft, map_cut_hits hright]
  have haccents : (assemble (entries ++ others)).accents = ((assemble entries).merge (assemble others)).accents := by
    rw [accents_eq_take, List.filterMap_append, List.getLast?_append, ← hlength]
    simp only [merge]
    split
    · rename_i hnone
      rw [(accents_assemble_eq_nil hothers).1 hnone, take_accents hleft]
      rfl
    · rename_i hsome
      rw [take_accents hright]
      cases hlast : (others.filterMap Entry.mask?).getLast? with
      | none =>
        exact absurd ((accents_assemble_eq_nil hothers).2 (List.getLast?_eq_none_iff.1 hlast)) hsome
      | some mask => rfl
  calc assemble (entries ++ others)
      = ⟨(assemble (entries ++ others)).hits, (assemble (entries ++ others)).accents,
          (assemble (entries ++ others)).length⟩ := rfl
    _ = ⟨((assemble entries).merge (assemble others)).hits, ((assemble entries).merge (assemble others)).accents,
          sharedLength (assemble entries) (assemble others)⟩ := by rw [hhits, haccents, hlength]
    _ = (assemble entries).merge (assemble others) := rfl

end Pattern

/-! ## Texts -/

/-- **Reading is a homomorphism.** Two texts with a line feed between them, whatever the first one ends with, are read
as the merge of what is read of each, with the warnings of the first and then those of the second, which count the lines
of the first. -/
theorem parse_merge {first second : List Char} {p q : Pattern} (hfirst : (Pattern.parse first).result = .ok p)
    (hsecond : (Pattern.parse second).result = .ok q) (source : String) :
    (Pattern.parse (first ++ '\n' :: second)).result = .ok (p.merge q) ∧
      Notice.ofSkipped source (Pattern.parse (first ++ '\n' :: second)).skipped =
        Notice.ofSkipped source (Pattern.parse first).skipped ++
          Notice.ofSkipped source ((Pattern.parse second).skipped.map
            (SkippedLine.shift (Text.splitLines (first ++ ['\n'])).length)) := by
  unfold Pattern.parse at hfirst hsecond ⊢
  rcases hread : readLines 1 (Text.splitLines first) with ⟨skipped, result⟩
  rcases hread' : readLines 1 (Text.splitLines second) with ⟨skipped', result'⟩
  rw [hread] at hfirst
  rw [hread'] at hsecond
  obtain ⟨entries, rfl, rfl⟩ := map_eq_ok.1 hfirst
  obtain ⟨others, rfl, rfl⟩ := map_eq_ok.1 hsecond
  have hpos := Pattern.length_pos_of_readLines hread
  have hothers := Pattern.length_pos_of_readLines hread'
  have htogether : readLines 1 (Text.splitLines (first ++ '\n' :: second)) =
      (skipped ++ skipped'.map (SkippedLine.shift (Text.splitLines (first ++ ['\n'])).length),
        .ok (entries ++ others)) := by
    rw [Text.splitLines_append_cons, readLines_append ((readLines_append_lineFeed 1 first).trans hread),
      readLines_shift, hread']
    rfl
  rw [htogether]
  refine ⟨?_, ?_⟩
  · exact congrArg Except.ok (Pattern.assemble_append hpos hothers)
  · exact List.map_append

/-- a snare of three steps and a mask of two, on lines that end with a carriage return -/
theorem parse_merge_snare :
    (Pattern.parse "SD x-x\rXX x\r\nXX -\nac -x".toList).result =
        .ok ⟨[⟨38, ['x', '-']⟩], [false, true], 2⟩ ∧
      Notice.ofSkipped "a.pat" (Pattern.parse "SD x-x\rXX x\r\nXX -\nac -x".toList).skipped =
        [.lineSkipped "a.pat" ⟨2, "XX"⟩, .lineSkipped "a.pat" ⟨3, "XX"⟩] := by
  have hfirst : (Pattern.parse "SD x-x\rXX x\r".toList).result = .ok ⟨[⟨38, ['x', '-', 'x']⟩], [], 3⟩ := by
    decide +kernel
  have hsecond : (Pattern.parse "XX -\nac -x".toList).result = .ok ⟨[], [false, true], 2⟩ := by decide +kernel
  have hmerge : (Pattern.mk [⟨38, ['x', '-', 'x']⟩] [] 3).merge ⟨[], [false, true], 2⟩ =
      ⟨[⟨38, ['x', '-']⟩], [false, true], 2⟩ := by decide
  obtain ⟨hmerged, hwarnings⟩ := parse_merge hfirst hsecond "a.pat"
  refine ⟨hmerged.trans (congrArg Except.ok hmerge), hwarnings.trans ?_⟩
  decide +kernel

end Drumline
