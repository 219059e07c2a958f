/-
What a pattern sounds like, said without events, waits and cursors: `Pattern.score` lists for each step the grace notes
of its flams and the notes of its hits, each with the tick where it starts and the tick where it ends.

Results:
- `events_eq`: the events that an arrangement makes of a pattern are `Pattern.arranged`.
- `soundingsFrom_arranged`: what is heard of these is the score. The invariant of the run over the steps is that the
  cursor and the wait together are at the step that comes next.
- `playable_of_mem_arranged`, `tick_of_mem_scoreAt`: messages can hold them, and every step sounds within bounds.
-/
import Drumline.Arrangement
import Drumline.Proofs.Track.Placement

namespace Drumline

/-! ## Model -/

/-- the ticks of a step and of a grace note, and the velocities of notes on the scale of the settings -/
structure Beat where
  step : Int
  grace : Int
  accent : Int
  normal : Int
  flam : Int
  noFlams : Bool
deriving DecidableEq, Repr

namespace Beat

/-- whether there is room for a grace note in a step, and the velocities are on the scale -/
structure Valid (beat : Beat) : Prop where
  grace_pos : 1 ≤ beat.grace
  grace_le : beat.grace ≤ beat.step
  accent : 0 ≤ beat.accent ∧ beat.accent ≤ 100
  normal : 0 ≤ beat.normal ∧ beat.normal ≤ 100
  flam : 0 ≤ beat.flam ∧ beat.flam ≤ 100

def feel (beat : Beat) : Feel :=
  ⟨beat.step, beat.grace, .int beat.accent, .int beat.normal, .int beat.flam, beat.noFlams⟩

/-- a velocity on the scale of MIDI: its share of 127, a half rounded up -/
def data (velocity : Int) : Int := (127 * velocity + 50) / 100

/-- where the grace note of a step starts: its length before the step, and of the first step as long after it -/
def graceTick (beat : Beat) (step : Nat) : Int := if step = 0 then beat.grace else step * beat.step - beat.grace

end Beat

/-- whether the symbol of a line on a step is one of some characters -/
def Hit.plays (symbols : List Char) (step : Nat) (hit : Hit) : Bool := hit.steps[step]?.any (symbols.contains ·)

namespace Pattern

/-- the lines that sound on a step -/
def sounding (p : Pattern) (step : Nat) : List Hit := p.hits.filter (Hit.plays ['x', 'X', 'f', 'F'] step)

/-- the lines with a flam on a step -/
def flams (p : Pattern) (step : Nat) : List Hit := p.hits.filter (Hit.plays ['f', 'F'] step)

def accented (p : Pattern) (step : Nat) : Bool := p.accents[step]?.getD false

/-- what is heard of a step: grace notes, unless there are to be none, and then the notes of the step -/
def scoreAt (p : Pattern) (beat : Beat) (step : Nat) : List Sounding :=
  let grace := Beat.data (if p.accented step then beat.accent else beat.flam)
  let velocity := Beat.data (if p.accented step then beat.accent else beat.normal)
  (if beat.noFlams then [] else (p.flams step).flatMap fun hit =>
    [⟨beat.graceTick step, true, 0, hit.note, grace⟩,
      ⟨beat.graceTick step + (beat.grace - 1), false, 0, hit.note, grace⟩]) ++
    ((p.sounding step).map fun hit => ⟨step * beat.step, true, 0, hit.note, velocity⟩) ++
    (p.sounding step).map fun hit => ⟨(step + 1) * beat.step, false, 0, hit.note, velocity⟩

/-- what is heard of a pattern, step by step -/
def score (p : Pattern) (beat : Beat) : List Sounding := (List.range p.length.toNat).flatMap (p.scoreAt beat)

def graceEvents (p : Pattern) (beat : Beat) (step : Nat) : List WholeEvent :=
  if beat.noFlams then [] else (p.flams step).map fun hit =>
    { pitches := [hit.note]
      duration := beat.grace - 1
      velocity := if p.accented step then beat.accent else beat.flam
      tick := some (beat.graceTick step) }

/-- the chord of a step after a wait -/
def chordEvent (p : Pattern) (beat : Beat) (step : Nat) (wait : Int) : WholeEvent :=
  { pitches := (p.sounding step).map (·.note)
    duration := beat.step
    velocity := if p.accented step then beat.accent else beat.normal
    wait }

/-- the events of some steps, after a wait -/
def wholeEvents (p : Pattern) (beat : Beat) (wait : Int) : List Nat → List WholeEvent
  | [] => []
  | step :: steps =>
    if p.sounding step = [] then p.wholeEvents beat (wait + beat.step) steps
    else p.graceEvents beat step ++ p.chordEvent beat step wait :: p.wholeEvents beat 0 steps

def arranged (p : Pattern) (beat : Beat) : List WholeEvent := p.wholeEvents beat 0 (List.range p.length.toNat)

/-- whether the notes that sound are those that messages can hold -/
def InRange (p : Pattern) : Prop :=
  ∀ hit ∈ p.hits, (∃ step, hit.plays ['x', 'X', 'f', 'F'] step = true) → 0 ≤ hit.note ∧ hit.note ≤ 127

/-- whether every line has the pattern's length, and the mask too unless there is none -/
structure Even (p : Pattern) : Prop where
  hits : ∀ hit ∈ p.hits, (hit.steps.length : Int) = p.length
  accents : p.accents = [] ∨ (p.accents.length : Int) = p.length

end Pattern

/-! ## The events of a pattern -/

theorem Hit.plays_eq {hit : Hit} {step : Nat} (h : step < hit.steps.length) (symbols : List Char) :
    hit.plays symbols step = symbols.contains hit.steps[step] := by
  rw [plays, List.getElem?_eq_getElem h, Option.any_some]

theorem Hit.strike?_eq {hit : Hit} {step : Nat} (h : step < hit.steps.length) :
    hit.strike? step = .ok (if hit.plays ['x', 'X', 'f', 'F'] step then
      some ⟨hit.note, hit.plays ['f', 'F'] step⟩ else none) := by
  rw [strike?, List.getElem?_eq_getElem h, plays_eq h, plays_eq h]
  dsimp only
  generalize hit.steps[step] = c
  unfold Symbol.ofChar
  by_cases hhit : c = 'x' ∨ c = 'X'
  · rw [if_pos hhit]
    rcases hhit with rfl | rfl <;> rfl
  · rw [if_neg hhit]
    by_cases hflam : c = 'f' ∨ c = 'F'
    · rw [if_pos hflam]
      rcases hflam with rfl | rfl <;> rfl
    · rw [if_neg hflam, if_neg]
      rw [not_or] at hhit hflam
      simp [hhit, hflam]

theorem Hit.lt_of_strike?_eq_ok {hit : Hit} {step : Nat} {strike : Option Strike}
    (h : hit.strike? step = .ok strike) : step < hit.steps.length := by
  by_contra hend
  rw [strike?, List.getElem?_eq_none (not_lt.1 hend)] at h
  cases h

namespace Pattern

variable {p : Pattern} {beat : Beat}

/-- a flam sounds -/
theorem flams_eq (p : Pattern) (step : Nat) : p.flams step = (p.sounding step).filter (Hit.plays ['f', 'F'] step) := by
  rw [sounding, List.filter_filter, flams]
  apply List.filter_congr
  intro hit _
  unfold Hit.plays
  cases hit.steps[step]? with
  | none => rfl
  | some c =>
    simp only [Option.any_some, List.contains_cons, List.contains_nil, Bool.or_false]
    cases c == 'f' <;> cases c == 'F' <;> simp

/-- what sounds on a step that every line has -/
theorem strikes_of_lt {step : Nat} (h : ∀ hit ∈ p.hits, step < hit.steps.length) :
    p.strikes step = .ok ((p.sounding step).map fun hit => ⟨hit.note, hit.plays ['f', 'F'] step⟩) := by
  have hmap : (p.hits.mapM fun (hit : Hit) => hit.strike? step) = .ok (p.hits.map fun hit =>
      if hit.plays ['x', 'X', 'f', 'F'] step then some ⟨hit.note, hit.plays ['f', 'F'] step⟩ else none) :=
    mapM_eq_ok_map fun hit hhit => Hit.strike?_eq (h hit hhit)
  rw [strikes, hmap, sounding]
  refine congrArg Except.ok ?_
  induction p.hits with
  | nil => rfl
  | cons hit hits ih =>
    rw [List.map_cons]
    cases hplays : hit.plays ['x', 'X', 'f', 'F'] step with
    | true =>
      rw [if_pos rfl, List.filter_cons_of_pos hplays, List.map_cons, ← ih]
      rfl
    | false =>
      rw [if_neg Bool.false_ne_true, List.filter_cons_of_neg (by rw [hplays]; exact Bool.false_ne_true), ← ih]
      rfl

theorem strikes_eq (h : p.Even) {step : Nat} (hstep : step < p.length.toNat) :
    p.strikes step = .ok ((p.sounding step).map fun hit => ⟨hit.note, hit.plays ['f', 'F'] step⟩) := by
  refine strikes_of_lt fun hit hhit => ?_
  have := h.hits hit hhit
  omega

/-- a step whose strikes are known is on every line -/
theorem strikes_eq_ok {step : Nat} {strikes : List Strike} (h : p.strikes step = .ok strikes) :
    strikes = (p.sounding step).map fun hit => ⟨hit.note, hit.plays ['f', 'F'] step⟩ := by
  obtain ⟨found, hfound, -⟩ := map_eq_ok.1 h
  have hlt : ∀ hit ∈ p.hits, step < hit.steps.length := by
    intro hit hhit
    obtain ⟨strike, -, hstrike⟩ := exists_of_mem_right (mapM_eq_ok.1 hfound).flip hhit
    exact Hit.lt_of_strike?_eq_ok hstrike
  exact Except.ok.inj (h.symm.trans (strikes_of_lt hlt))

/-- a step can always be looked up in the mask, whatever the mask's length -/
theorem isAccented_eq (p : Pattern) (step : Nat) : p.isAccented step = .ok (p.accented step) := by
  unfold isAccented accented
  by_cases hend : p.accents.length ≤ step
  · rw [if_pos (by omega), List.getElem?_eq_none hend]
    rfl
  · rw [if_neg (by omega), if_neg (by omega), Int.toNat_natCast, List.getElem?_eq_getElem (by omega)]
    simp only
    rw [if_neg (by omega)]
    rfl

theorem graceTick_eq (hbeat : beat.Valid) (step : Nat) : beat.feel.graceTick step = beat.graceTick step := by
  have hpos := hbeat.grace_pos
  have hle := hbeat.grace_le
  unfold Feel.graceTick Beat.graceTick Beat.feel
  simp only
  cases step with
  | zero => rw [if_pos rfl, if_pos (by push_cast; omega)]
  | succ n =>
    have hroom : beat.step ≤ ((n + 1 : Nat) : Int) * beat.step := by
      have : 0 ≤ (n : Int) * beat.step := Int.mul_nonneg (by omega) (by omega)
      push_cast
      linarith
    rw [if_neg (by omega), if_neg (by omega)]

theorem stepEvents_eq (hbeat : beat.Valid) (step : Nat) (wait : Int) :
    beat.feel.stepEvents step (p.accented step) wait
        ((p.sounding step).map fun hit => ⟨hit.note, hit.plays ['f', 'F'] step⟩) =
      (p.graceEvents beat step ++ [p.chordEvent beat step wait]).map WholeEvent.toEvent := by
  have hchord : beat.feel.chord (p.accented step) wait
      ((p.sounding step).map fun hit => ⟨hit.note, hit.plays ['f', 'F'] step⟩) =
        (p.chordEvent beat step wait).toEvent := by
    unfold Feel.chord chordEvent WholeEvent.toEvent
    rw [List.map_map, List.map_map]
    cases p.accented step <;> rfl
  have hgrace : (((p.sounding step).map fun hit => Strike.mk hit.note (hit.plays ['f', 'F'] step)).filter
      (·.flam)).map (beat.feel.grace step (p.accented step)) = ((p.flams step).map fun hit =>
        { pitches := [hit.note], duration := beat.grace - 1, tick := some (beat.graceTick step),
          velocity := if p.accented step then beat.accent else beat.flam }).map WholeEvent.toEvent := by
    rw [List.filter_map, List.map_map, List.map_map, flams_eq]
    apply List.map_congr_left
    intro hit _
    simp only [Function.comp_apply, Feel.grace, WholeEvent.toEvent, graceTick_eq hbeat]
    cases p.accented step <;> rfl
  unfold Feel.stepEvents graceEvents
  rw [hchord, List.map_append, hgrace]
  show (if beat.noFlams then _ else _) ++ _ = _
  split <;> rfl

/-- **The events of a pattern.** They exist if its lines and its mask are as long as it, and are whole. -/
theorem eventsFrom_eq (h : p.Even) (hbeat : beat.Valid) {steps : List Nat}
    (hsteps : ∀ step ∈ steps, step < p.length.toNat) (wait : Int) :
    p.eventsFrom beat.feel wait steps = .ok ((p.wholeEvents beat wait steps).map WholeEvent.toEvent) := by
  induction steps generalizing wait with
  | nil => rfl
  | cons step steps ih =>
    have hstep := hsteps step List.mem_cons_self
    have hrest (wait : Int) := ih (fun s hs => hsteps s (List.mem_cons_of_mem _ hs)) wait
    rw [eventsFrom, strikes_eq h hstep, wholeEvents]
    show (if ((p.sounding step).map _) = [] then p.eventsFrom beat.feel (wait + beat.step) steps
      else p.isAccented step >>= _) = _
    by_cases hsilent : p.sounding step = []
    · rw [if_pos (List.map_eq_nil_iff.2 hsilent), if_pos hsilent, hrest]
    · rw [if_neg (mt List.map_eq_nil_iff.1 hsilent), if_neg hsilent, isAccented_eq]
      show (p.eventsFrom beat.feel 0 steps >>= fun others => pure
        (beat.feel.stepEvents step (p.accented step) wait _ ++ others)) = _
      have hevents : (p.graceEvents beat step ++ p.chordEvent beat step wait :: p.wholeEvents beat 0 steps).map
          WholeEvent.toEvent = (p.graceEvents beat step ++ [p.chordEvent beat step wait]).map WholeEvent.toEvent ++
            (p.wholeEvents beat 0 steps).map WholeEvent.toEvent := by
        rw [List.append_cons, List.map_append]
      rw [hrest, stepEvents_eq hbeat, hevents]
      rfl

theorem events_eq (h : p.Even) (hbeat : beat.Valid) :
    p.events beat.feel = .ok ((p.arranged beat).map WholeEvent.toEvent) :=
  eventsFrom_eq h hbeat (fun _ hstep => List.mem_range.1 hstep) 0

end Pattern

/-! ## What is heard of the events -/

theorem Beat.loudness_eq {e : WholeEvent} (h : 0 ≤ e.velocity ∧ e.velocity ≤ 100) :
    Velocity.toData (.int e.velocity) = .ok (Beat.data e.velocity) ∧ e.loudness = Beat.data e.velocity := by
  obtain ⟨v, hv⟩ := Int.eq_ofNat_of_zero_le h.1
  have hle : v ≤ Velocity.greatest := by
    show v ≤ 100
    omega
  have hdata : Velocity.toData (.int e.velocity) = .ok (Beat.data e.velocity) := by
    rw [hv, Velocity.toData_eq hle, Beat.data]
    push_cast
    rfl
  exact ⟨hdata, WholeEvent.loudness_eq hdata⟩

theorem Beat.data_bounds {velocity : Int} (h : 0 ≤ velocity ∧ velocity ≤ 100) :
    0 ≤ Beat.data velocity ∧ Beat.data velocity ≤ 127 := by
  unfold Beat.data
  omega

/-- events with a tick leave the cursor alone -/
theorem soundingsFrom_append {events : List WholeEvent} (h : ∀ e ∈ events, e.tick.isSome) (cursor : Int)
    (others : List WholeEvent) : soundingsFrom cursor (events ++ others) =
      events.flatMap (fun e => e.soundings (e.start cursor)) ++ soundingsFrom cursor others := by
  induction events with
  | nil => rfl
  | cons e events ih =>
    have hnext : e.next cursor = cursor := by rw [WholeEvent.next, if_pos (h e List.mem_cons_self)]
    rw [List.cons_append, soundingsFrom, hnext, ih fun e he => h e (List.mem_cons_of_mem _ he), List.flatMap_cons,
      List.append_assoc]

namespace Pattern

variable {p : Pattern} {beat : Beat}

theorem velocity_graceEvents (hbeat : beat.Valid) {step : Nat} {e : WholeEvent} (he : e ∈ p.graceEvents beat step) :
    ∃ hit ∈ p.flams step, e = ⟨[hit.note], beat.grace - 1, if p.accented step then beat.accent else beat.flam, 0,
      some (beat.graceTick step), 0⟩ ∧ 0 ≤ e.velocity ∧ e.velocity ≤ 100 := by
  unfold graceEvents at he
  split at he
  · exact (List.not_mem_nil he).elim
  · obtain ⟨hit, hhit, rfl⟩ := List.mem_map.1 he
    refine ⟨hit, hhit, rfl, ?_⟩
    show 0 ≤ (if p.accented step then beat.accent else beat.flam) ∧ _
    split
    · exact hbeat.accent
    · exact hbeat.flam

theorem velocity_chordEvent (hbeat : beat.Valid) (step : Nat) (wait : Int) :
    0 ≤ (p.chordEvent beat step wait).velocity ∧ (p.chordEvent beat step wait).velocity ≤ 100 := by
  unfold chordEvent
  simp only
  split
  · exact hbeat.accent
  · exact hbeat.normal

theorem soundings_graceEvents (hbeat : beat.Valid) (step : Nat) (cursor : Int) :
    (p.graceEvents beat step).flatMap (fun e => e.soundings (e.start cursor)) =
      if beat.noFlams then [] else (p.flams step).flatMap fun hit =>
        [⟨beat.graceTick step, true, 0, hit.note, Beat.data (if p.accented step then beat.accent else beat.flam)⟩,
          ⟨beat.graceTick step + (beat.grace - 1), false, 0, hit.note,
            Beat.data (if p.accented step then beat.accent else beat.flam)⟩] := by
  have hloudness : ∀ e ∈ p.graceEvents beat step, e.loudness = Beat.data e.velocity := by
    intro e he
    obtain ⟨_, _, _, hvelocity⟩ := velocity_graceEvents hbeat he
    exact (Beat.loudness_eq hvelocity).2
  unfold graceEvents at hloudness ⊢
  split
  · rfl
  · rename_i hflams
    rw [if_neg hflams] at hloudness
    rw [List.flatMap_map]
    apply List.flatMap_congr
    intro hit hhit
    rw [WholeEvent.soundings, hloudness _ (List.mem_map_of_mem hhit)]
    rfl

/-- what is heard of the chord of a step, if the wait before it leads there -/
theorem soundings_chordEvent (hbeat : beat.Valid) {step : Nat} {cursor wait : Int}
    (h : cursor + wait = step * beat.step) :
    (p.chordEvent beat step wait).soundings ((p.chordEvent beat step wait).start cursor) =
      ((p.sounding step).map fun hit => ⟨step * beat.step, true, 0, hit.note,
        Beat.data (if p.accented step then beat.accent else beat.normal)⟩) ++
      (p.sounding step).map fun hit => ⟨(step + 1) * beat.step, false, 0, hit.note,
        Beat.data (if p.accented step then beat.accent else beat.normal)⟩ := by
  have hstart : (p.chordEvent beat step wait).start cursor = step * beat.step := h
  have hstop : (step : Int) * beat.step + beat.step = (step + 1) * beat.step := by ring
  rw [WholeEvent.soundings, (Beat.loudness_eq (velocity_chordEvent hbeat step wait)).2, hstart]
  unfold chordEvent
  simp only [List.map_map, hstop]
  rfl

theorem scoreAt_of_sounding_eq_nil {step : Nat} (h : p.sounding step = []) : p.scoreAt beat step = [] := by
  have hflams : p.flams step = [] := by rw [flams_eq, h, List.filter_nil]
  unfold scoreAt
  rw [h, hflams]
  simp

/-- **The score of a run of steps.** With the cursor and the wait together at the first step, what is heard of the
events of the steps is their score. -/
theorem soundingsFrom_wholeEvents (hbeat : beat.Valid) (first count : Nat) {cursor wait : Int}
    (h : cursor + wait = first * beat.step) :
    soundingsFrom cursor (p.wholeEvents beat wait (List.range' first count)) =
      (List.range' first count).flatMap (p.scoreAt beat) := by
  induction count generalizing first cursor wait with
  | zero => rfl
  | succ count ih =>
    have hnext : ((first + 1 : Nat) : Int) * beat.step = first * beat.step + beat.step := by
      push_cast
      ring
    rw [List.range'_succ, List.flatMap_cons, wholeEvents]
    by_cases hsilent : p.sounding first = []
    · rw [if_pos hsilent, scoreAt_of_sounding_eq_nil hsilent, List.nil_append]
      exact ih (first + 1) (by omega)
    · have hticks : ∀ e ∈ p.graceEvents beat first, e.tick.isSome := by
        intro e he
        obtain ⟨_, _, rfl, _⟩ := velocity_graceEvents hbeat he
        rfl
      have hcursor : (p.chordEvent beat first wait).next cursor + 0 = ((first + 1 : Nat) : Int) * beat.step := by
        show cursor + wait + beat.step + 0 = _
        omega
      rw [if_neg hsilent, soundingsFrom_append hticks, soundingsFrom, soundings_graceEvents hbeat,
        soundings_chordEvent hbeat h, ih (first + 1) hcursor, ← List.append_assoc, ← List.append_assoc]
      rfl

/-- what is heard of a pattern is its score -/
theorem soundingsFrom_arranged (hbeat : beat.Valid) : soundingsFrom 0 (p.arranged beat) = p.score beat := by
  rw [score, arranged, List.range_eq_range']
  exact soundingsFrom_wholeEvents hbeat 0 _ (by simp)

/-- a step sounds from the start of the pattern at the earliest to the end of the step after it at the latest -/
theorem tick_of_mem_scoreAt (hbeat : beat.Valid) {step : Nat} {s : Sounding} (h : s ∈ p.scoreAt beat step) :
    0 ≤ s.tick ∧ s.tick < (step + 2) * beat.step := by
  have hpos := hbeat.grace_pos
  have hle := hbeat.grace_le
  have hstep : 0 ≤ (step : Int) * beat.step := Int.mul_nonneg (by omega) (by omega)
  have hend : ((step : Int) + 2) * beat.step = step * beat.step + 2 * beat.step := by ring
  have hgrace : 0 ≤ beat.graceTick step ∧ beat.graceTick step + beat.grace ≤ step * beat.step + 2 * beat.grace := by
    unfold Beat.graceTick
    cases step with
    | zero => rw [if_pos rfl]; omega
    | succ n =>
      have hroom : beat.step ≤ ((n + 1 : Nat) : Int) * beat.step := by
        have : 0 ≤ (n : Int) * beat.step := Int.mul_nonneg (by omega) (by omega)
        push_cast
        linarith
      rw [if_neg (by omega)]
      omega
  have hnext : ((step : Int) + 1) * beat.step = step * beat.step + beat.step := by ring
  rw [hend]
  unfold scoreAt at h
  rcases List.mem_append.1 h with h | h
  · rcases List.mem_append.1 h with h | h
    · split at h
      · exact (List.not_mem_nil h).elim
      · obtain ⟨hit, -, h⟩ := List.mem_flatMap.1 h
        rcases List.mem_cons.1 h with rfl | h
        · show 0 ≤ beat.graceTick step ∧ beat.graceTick step < _
          omega
        · rw [List.mem_singleton.1 h]
          show 0 ≤ beat.graceTick step + (beat.grace - 1) ∧ beat.graceTick step + (beat.grace - 1) < _
          omega
    · obtain ⟨hit, -, rfl⟩ := List.mem_map.1 h
      show 0 ≤ (step : Int) * beat.step ∧ (step : Int) * beat.step < _
      omega
  · obtain ⟨hit, -, rfl⟩ := List.mem_map.1 h
    show 0 ≤ ((step : Int) + 1) * beat.step ∧ ((step : Int) + 1) * beat.step < _
    omega

theorem tick_nonneg_of_mem_score (hbeat : beat.Valid) {s : Sounding} (h : s ∈ p.score beat) : 0 ≤ s.tick := by
  obtain ⟨step, -, h⟩ := List.mem_flatMap.1 h
  exact (tick_of_mem_scoreAt hbeat h).1

theorem tick_lt_of_mem_score (hbeat : beat.Valid) {s : Sounding} (h : s ∈ p.score beat) :
    s.tick < (p.length.toNat + 1) * beat.step := by
  have hpos := hbeat.grace_pos
  have hle := hbeat.grace_le
  obtain ⟨step, hstep, h⟩ := List.mem_flatMap.1 h
  have hlt : step < p.length.toNat := List.mem_range.1 hstep
  have hlast : ((step : Int) + 2) * beat.step ≤ (p.length.toNat + 1) * beat.step :=
    Int.mul_le_mul_of_nonneg_right (by omega) (by omega)
  exact lt_of_lt_of_le (tick_of_mem_scoreAt hbeat h).2 hlast

/-- on each step there are at most a note and a grace note for every line, and each has a start and an end -/
theorem length_score_le (p : Pattern) (beat : Beat) : (p.score beat).length ≤ p.length.toNat * (4 * p.hits.length) := by
  have hstep (step : Nat) : (p.scoreAt beat step).length ≤ 4 * p.hits.length := by
    have hsounding : (p.sounding step).length ≤ p.hits.length := List.length_filter_le _ _
    have hflams : (p.flams step).length ≤ p.hits.length := List.length_filter_le _ _
    unfold scoreAt
    simp only [List.length_append, List.length_map]
    split
    · rw [List.length_nil]
      omega
    · rw [List.length_flatMap]
      simp only [List.length_cons, List.length_nil, List.map_const', List.sum_replicate, smul_eq_mul]
      omega
  rw [score, List.length_flatMap]
  have hsum := List.sum_le_card_nsmul ((List.range p.length.toNat).map fun step => (p.scoreAt beat step).length)
    (4 * p.hits.length) fun n hn => by
      obtain ⟨step, -, rfl⟩ := List.mem_map.1 hn
      exact hstep step
  rw [List.length_map, List.length_range, smul_eq_mul] at hsum
  exact hsum

/-- messages can hold the events, if they can hold the notes that sound -/
theorem playable_of_mem_wholeEvents (hbeat : beat.Valid) (hnotes : p.InRange) {wait : Int} {steps : List Nat} :
    ∀ e ∈ p.wholeEvents beat wait steps, e.Playable := by
  have hplayable (e : WholeEvent) (hvelocity : 0 ≤ e.velocity ∧ e.velocity ≤ 100) (hchannel : e.channel = 0)
      (hpitches : ∀ pitch ∈ e.pitches, ∃ step, ∃ hit ∈ p.sounding step, pitch = hit.note) : e.Playable := by
    obtain ⟨hconverts, hloudness⟩ := Beat.loudness_eq hvelocity
    have hbounds : 0 ≤ e.loudness ∧ e.loudness ≤ 127 := hloudness ▸ Beat.data_bounds hvelocity
    refine ⟨hloudness ▸ hconverts, fun pitch hpitch => ?_, fun _ => by omega, fun _ => hbounds⟩
    obtain ⟨step, hit, hhit, rfl⟩ := hpitches pitch hpitch
    obtain ⟨hmem, hplays⟩ := List.mem_filter.1 hhit
    exact hnotes hit hmem ⟨step, hplays⟩
  induction steps generalizing wait with
  | nil => exact fun e he => (List.not_mem_nil he).elim
  | cons step steps ih =>
    intro e he
    rw [wholeEvents] at he
    split at he
    · exact ih e he
    · rcases List.mem_append.1 he with he | he
      · obtain ⟨hit, hhit, rfl, hvelocity⟩ := velocity_graceEvents hbeat he
        rw [flams_eq] at hhit
        refine hplayable _ hvelocity rfl fun pitch hpitch => ⟨step, hit, List.mem_of_mem_filter hhit, ?_⟩
        exact List.mem_singleton.1 hpitch
      · rcases List.mem_cons.1 he with rfl | he
        · apply hplayable _ (velocity_chordEvent hbeat step wait) rfl
          intro pitch hpitch
          obtain ⟨hit, hhit, rfl⟩ := List.mem_map.1 hpitch
          exact ⟨step, hit, hhit, rfl⟩
        · exact ih e he

theorem playable_of_mem_arranged (hbeat : beat.Valid) (hnotes : p.InRange) : ∀ e ∈ p.arranged beat, e.Playable :=
  playable_of_mem_wholeEvents hbeat hnotes

end Pattern

end Drumline
