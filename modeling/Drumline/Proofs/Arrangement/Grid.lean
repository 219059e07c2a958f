/-
Where the chords of a pattern stand: on a grid of steps, whatever the settings are. A chord waits for as long as the
steps before it were silent, so that the waits and the lengths of all chords up to it add up to its step.

`eventsFrom_cons_iff` says what one step adds to the events, and the results are inductions over it. The invariant of
the run over the steps is that the cursor and the wait together are at the step that comes next. Grace notes have ticks
of their own and leave the cursor alone (`OnGrid.placed`), so that they do not move the chords.

Main result: `chords_on_grid`.
-/
import Drumline.Proofs.Arrangement.Events

namespace Drumline

/-! ## Model -/

namespace Pattern

def soundsOn (p : Pattern) (step : Nat) : Bool := p.hits.any (Hit.plays ['x', 'X', 'f', 'F'] step)

/-- the steps of a pattern on which a line sounds -/
def soundingSteps (p : Pattern) : List Nat := (List.range p.length.toNat).filter p.soundsOn

def graceAt (p : Pattern) (feel : Feel) (step : Nat) (hit : Hit) : NoteEvent :=
  { pitches := [.int hit.note]
    duration := .int (feel.flamTicks - 1)
    velocity := if p.accented step then feel.accentVelocity else feel.flamVelocity
    tick := some (.int (feel.graceTick step)) }

def gracesAt (p : Pattern) (feel : Feel) (step : Nat) : List NoteEvent :=
  if feel.noFlams then [] else (p.flams step).map (p.graceAt feel step)

/-- the chord of a step after a wait -/
def chordAt (p : Pattern) (feel : Feel) (step : Nat) (wait : Int) : NoteEvent :=
  { pitches := (p.sounding step).map fun hit => .int hit.note
    duration := .int feel.stepTicks
    velocity := if p.accented step then feel.accentVelocity else feel.normalVelocity
    wait := .int wait }

end Pattern

/-- Whether events stand on a grid, with the cursor before the first of them: those without a tick of their own start on
the steps, one after the other. The cursor moves as it does when the events are placed. -/
inductive OnGrid (ticks : Int) : Number → List Nat → List NoteEvent → Prop
  | nil {cursor : Number} : OnGrid ticks cursor [] []
  | placed {cursor : Number} {steps : List Nat} {e : NoteEvent} {events : List NoteEvent} (htick : e.tick.isSome)
    (hrest : OnGrid ticks cursor steps events) : OnGrid ticks cursor steps (e :: events)
  | chord {cursor stop : Number} {step : Nat} {steps : List Nat} {e : NoteEvent} {events : List NoteEvent}
    (htick : e.tick = none) (hstart : e.start cursor = .ok (.int (step * ticks)))
    (hstop : (Number.int (step * ticks)).add e.duration = .ok stop) (hrest : OnGrid ticks stop steps events) :
    OnGrid ticks cursor (step :: steps) (e :: events)

/-- events with ticks may stand anywhere between those of a grid -/
theorem OnGrid.append_placed {ticks : Int} {cursor : Number} {steps : List Nat} {front events : List NoteEvent}
    (h : OnGrid ticks cursor steps events) (hfront : ∀ e ∈ front, e.tick.isSome) :
    OnGrid ticks cursor steps (front ++ events) := by
  induction front with
  | nil => exact h
  | cons e front ih =>
    exact .placed (hfront e List.mem_cons_self) (ih fun e he => hfront e (List.mem_cons_of_mem _ he))

theorem succ_mul_ticks (step : Nat) (ticks : Int) : ((step + 1 : Nat) : Int) * ticks = step * ticks + ticks := by
  rw [Nat.cast_succ, add_one_mul]

/-! ## One step -/

namespace Pattern

variable {p : Pattern} {feel : Feel} {step : Nat} {wait : Int} {steps : List Nat} {events : List NoteEvent}

theorem soundsOn_eq_false_iff (p : Pattern) (step : Nat) : p.soundsOn step = false ↔ p.sounding step = [] := by
  rw [soundsOn, sounding, List.any_eq_false, List.filter_eq_nil_iff]

theorem soundsOn_iff (p : Pattern) (step : Nat) : p.soundsOn step = true ↔ p.sounding step ≠ [] := by
  rw [Ne, ← soundsOn_eq_false_iff, Bool.not_eq_false]

theorem stepEvents_of_sounding (p : Pattern) (feel : Feel) (step : Nat) (wait : Int) :
    feel.stepEvents step (p.accented step) wait
        ((p.sounding step).map fun hit => ⟨hit.note, hit.plays ['f', 'F'] step⟩) =
      p.gracesAt feel step ++ [p.chordAt feel step wait] := by
  have hchord : feel.chord (p.accented step) wait
      ((p.sounding step).map fun hit => ⟨hit.note, hit.plays ['f', 'F'] step⟩) = p.chordAt feel step wait := by
    unfold Feel.chord chordAt
    rw [List.map_map]
    rfl
  have hgraces : (((p.sounding step).map fun hit => Strike.mk hit.note (hit.plays ['f', 'F'] step)).filter
      (·.flam)).map (feel.grace step (p.accented step)) = (p.flams step).map (p.graceAt feel step) := by
    rw [List.filter_map, List.map_map, flams_eq]
    rfl
  unfold Feel.stepEvents gracesAt
  rw [hchord, hgraces]

/-- **One step of the run.** A silent step adds its length to the wait. Any other adds its grace notes, and its chord
after the wait so far. -/
theorem eventsFrom_cons_iff : p.eventsFrom feel wait (step :: steps) = .ok events ↔
    (∃ strikes, p.strikes step = .ok strikes) ∧
      ((p.soundsOn step = false ∧ p.eventsFrom feel (wait + feel.stepTicks) steps = .ok events) ∨
        (p.soundsOn step = true ∧ ∃ others, p.eventsFrom feel 0 steps = .ok others ∧
          events = p.gracesAt feel step ++ p.chordAt feel step wait :: others)) := by
  constructor
  · intro h
    obtain ⟨strikes, hstrikes, h⟩ := eventsFrom_cons_eq_ok.1 h
    obtain rfl := strikes_eq_ok hstrikes
    refine ⟨⟨_, hstrikes⟩, ?_⟩
    rcases h with ⟨hsilent, h⟩ | ⟨hsounds, others, hothers, rfl⟩
    · exact .inl ⟨(soundsOn_eq_false_iff p step).2 (List.map_eq_nil_iff.1 hsilent), h⟩
    · refine .inr ⟨(soundsOn_iff p step).2 (mt List.map_eq_nil_iff.2 hsounds), others, hothers, ?_⟩
      rw [stepEvents_of_sounding, List.append_assoc, List.singleton_append]
  · rintro ⟨⟨strikes, hstrikes⟩, h⟩
    obtain rfl := strikes_eq_ok hstrikes
    refine eventsFrom_cons_eq_ok.2 ⟨_, hstrikes, ?_⟩
    rcases h with ⟨hsilent, h⟩ | ⟨hsounds, others, hothers, rfl⟩
    · exact .inl ⟨List.map_eq_nil_iff.2 ((soundsOn_eq_false_iff p step).1 hsilent), h⟩
    · refine .inr ⟨mt List.map_eq_nil_iff.1 ((soundsOn_iff p step).1 hsounds), others, hothers, ?_⟩
      rw [stepEvents_of_sounding, List.append_assoc, List.singleton_append]

theorem tick_of_mem_gracesAt {e : NoteEvent} (h : e ∈ p.gracesAt feel step) :
    e.tick = some (.int (feel.graceTick step)) := by
  unfold gracesAt at h
  split at h
  · exact (List.not_mem_nil h).elim
  · obtain ⟨hit, -, rfl⟩ := List.mem_map.1 h
    rfl

@[simp] theorem filter_isNone_gracesAt : (p.gracesAt feel step).filter (·.tick.isNone) = [] := by
  rw [List.filter_eq_nil_iff]
  intro e he
  rw [tick_of_mem_gracesAt he]
  exact Bool.false_ne_true

@[simp] theorem filter_isSome_gracesAt : (p.gracesAt feel step).filter (·.tick.isSome) = p.gracesAt feel step := by
  rw [List.filter_eq_self]
  intro e he
  rw [tick_of_mem_gracesAt he]
  rfl

theorem gracesAt_of_silent (h : p.soundsOn step = false) : p.gracesAt feel step = [] := by
  rw [gracesAt, flams_eq, (soundsOn_eq_false_iff p step).1 h]
  exact ite_self _

/-! ## A run of steps -/

/-- **Chords on a grid.** With the elapsed ticks and the wait together at the first step, the waits of the chords lead
each of them to its step, and grace notes are not in the way. -/
theorem exists_waits (first count : Nat) (elapsed : Int) (hfirst : elapsed + wait = first * feel.stepTicks)
    (h : p.eventsFrom feel wait (List.range' first count) = .ok events) :
    ∃ waits : List Int, waits.length = ((List.range' first count).filter p.soundsOn).length ∧
      events.filter (·.tick.isNone) =
        List.zipWith (p.chordAt feel) ((List.range' first count).filter p.soundsOn) waits ∧
      (∀ (k step : Nat) (wait : Int), ((List.range' first count).filter p.soundsOn)[k]? = some step →
        waits[k]? = some wait →
          elapsed + ((waits.take k).map (· + feel.stepTicks)).sum + wait = step * feel.stepTicks) ∧
      OnGrid feel.stepTicks (.int elapsed) ((List.range' first count).filter p.soundsOn) events := by
  induction count generalizing first elapsed wait events with
  | zero =>
    cases h
    exact ⟨[], rfl, rfl, by simp, .nil⟩
  | succ count ih =>
    have hnext := succ_mul_ticks first feel.stepTicks
    rw [List.range'_succ] at h ⊢
    obtain ⟨-, ⟨hsilent, h⟩ | ⟨hsounds, others, hothers, rfl⟩⟩ := eventsFrom_cons_iff.1 h
    · -- nothing has elapsed on a silent step: its length is in the wait
      rw [List.filter_cons_of_neg (by rw [hsilent]; exact Bool.false_ne_true)]
      exact ih (first + 1) elapsed (by omega) h
    · rw [List.filter_cons_of_pos hsounds]
      obtain ⟨waits, hlength, hchords, hwaits, hgrid⟩ :=
        ih (first + 1) (elapsed + wait + feel.stepTicks) (by omega) hothers
      refine ⟨wait :: waits, congrArg (· + 1) hlength, ?_, ?_, ?_⟩
      · rw [List.filter_append, filter_isNone_gracesAt, List.filter_cons_of_pos rfl, hchords]
        rfl
      · rintro (_ | k) step wait' hstep hwait
        · cases hstep
          cases hwait
          simpa using hfirst
        · have := hwaits k step wait' hstep hwait
          rw [List.take_succ_cons, List.map_cons, List.sum_cons]
          omega
      · have hstart : (p.chordAt feel first wait).start (.int elapsed) = .ok (.int (first * feel.stepTicks)) := by
          rw [← hfirst]
          rfl
        rw [hfirst] at hgrid
        exact hgrid.chord rfl hstart rfl |>.append_placed fun e he => by rw [tick_of_mem_gracesAt he]; rfl

/-- the chords of a pattern stand on its steps -/
theorem exists_waits_of_events (h : p.events feel = .ok events) :
    ∃ waits : List Int, waits.length = p.soundingSteps.length ∧
      events.filter (·.tick.isNone) = List.zipWith (p.chordAt feel) p.soundingSteps waits ∧
      (∀ (k step : Nat) (wait : Int), p.soundingSteps[k]? = some step → waits[k]? = some wait →
        ((waits.take k).map (· + feel.stepTicks)).sum + wait = step * feel.stepTicks) ∧
      OnGrid feel.stepTicks 0 p.soundingSteps events := by
  rw [Pattern.events, List.range_eq_range'] at h
  obtain ⟨waits, hlength, hchords, hwaits, hgrid⟩ := exists_waits 0 p.length.toNat 0 (by simp) h
  rw [← List.range_eq_range'] at hlength hchords hwaits hgrid
  refine ⟨waits, hlength, hchords, fun k step wait hstep hwait => ?_, hgrid⟩
  have := hwaits k step wait hstep hwait
  rwa [zero_add] at this

/-- the pitches of the chords are the notes that sound on their steps -/
theorem pitches_of_eventsFrom (h : p.eventsFrom feel wait steps = .ok events) :
    (events.filter (·.tick.isNone)).map (·.pitches) =
      (steps.filter p.soundsOn).map fun step => (p.sounding step).map fun hit => .int hit.note := by
  induction steps generalizing wait events with
  | nil =>
    cases h
    rfl
  | cons step steps ih =>
    obtain ⟨-, ⟨hsilent, h⟩ | ⟨hsounds, others, hothers, rfl⟩⟩ := eventsFrom_cons_iff.1 h
    · rw [List.filter_cons_of_neg (by rw [hsilent]; exact Bool.false_ne_true), ih h]
    · rw [List.filter_cons_of_pos hsounds, List.filter_append, filter_isNone_gracesAt, List.filter_cons_of_pos rfl,
        List.nil_append, List.map_cons, List.map_cons, ih hothers]
      rfl

/-- **Grace notes.** The events with a tick are the grace notes of the steps, one step after the other. -/
theorem graces_of_eventsFrom (h : p.eventsFrom feel wait steps = .ok events) :
    events.filter (·.tick.isSome) = steps.flatMap (p.gracesAt feel) := by
  induction steps generalizing wait events with
  | nil =>
    cases h
    rfl
  | cons step steps ih =>
    rw [List.flatMap_cons]
    obtain ⟨-, ⟨hsilent, h⟩ | ⟨-, others, hothers, rfl⟩⟩ := eventsFrom_cons_iff.1 h
    · rw [gracesAt_of_silent hsilent, List.nil_append, ih h]
    · rw [List.filter_append, filter_isSome_gracesAt, List.filter_cons_of_neg Bool.false_ne_true, ih hothers]

/-- **Flams off.** Without grace notes a run has the chords that it has with them, or the same error. -/
theorem eventsFrom_noFlams_eq (p : Pattern) (feel : Feel) (wait : Int) (steps : List Nat) :
    p.eventsFrom { feel with noFlams := true } wait steps =
      (p.eventsFrom feel wait steps).map (List.filter (·.tick.isNone)) := by
  induction steps generalizing wait with
  | nil => rfl
  | cons step steps ih =>
    cases hstrikes : p.strikes step with
    | error e => rw [eventsFrom_of_error hstrikes, eventsFrom_of_error hstrikes]; rfl
    | ok strikes =>
      by_cases hsilent : strikes = []
      · subst hsilent
        rw [eventsFrom_of_silent hstrikes, eventsFrom_of_silent hstrikes, ih]
      · rw [eventsFrom_of_sounding hstrikes hsilent, eventsFrom_of_sounding hstrikes hsilent, ih,
          Feel.stepEvents_noFlams]
        cases p.eventsFrom feel 0 steps with
        | error e => rfl
        | ok others =>
          have hchord := Feel.filter_isNone_stepEvents feel step (p.accented step) wait strikes
          refine congrArg Except.ok ?_
          rw [← hchord]
          exact (List.filter_append ..).symm

theorem eventsFrom_noFlams (h : p.eventsFrom feel wait steps = .ok events) :
    p.eventsFrom { feel with noFlams := true } wait steps = .ok (events.filter (·.tick.isNone)) := by
  rw [eventsFrom_noFlams_eq, h]
  rfl

/-- silent steps make no events -/
theorem events_of_silent (hsilent : ∀ step ∈ steps, p.soundsOn step = false)
    (h : p.eventsFrom feel wait steps = .ok events) : events = [] := by
  induction steps generalizing wait with
  | nil =>
    cases h
    rfl
  | cons step steps ih =>
    obtain ⟨-, ⟨-, h⟩ | ⟨hsounds, -⟩⟩ := eventsFrom_cons_iff.1 h
    · exact ih (fun step hstep => hsilent step (List.mem_cons_of_mem _ hstep)) h
    · rw [hsilent step List.mem_cons_self] at hsounds
      cases hsounds

/-- silent steps behind the others leave no trace -/
theorem eventsFrom_of_append {silent : List Nat} (hsilent : ∀ step ∈ silent, p.soundsOn step = false)
    (h : p.eventsFrom feel wait (steps ++ silent) = .ok events) : p.eventsFrom feel wait steps = .ok events := by
  induction steps generalizing wait events with
  | nil =>
    rw [events_of_silent hsilent h]
    rfl
  | cons step steps ih =>
    obtain ⟨hstrikes, ⟨hquiet, h⟩ | ⟨hsounds, others, hothers, rfl⟩⟩ := eventsFrom_cons_iff.1 h
    · exact eventsFrom_cons_iff.2 ⟨hstrikes, .inl ⟨hquiet, ih h⟩⟩
    · exact eventsFrom_cons_iff.2 ⟨hstrikes, .inr ⟨hsounds, others, ih hothers, rfl⟩⟩

/-- the length of a pattern only says how many steps there are -/
theorem eventsFrom_length (length : Int) :
    { p with length }.eventsFrom feel wait steps = p.eventsFrom feel wait steps := by
  induction steps generalizing wait with
  | nil => rfl
  | cons step steps ih =>
    rw [eventsFrom, eventsFrom]
    simp only [ih]
    rfl

end Pattern

/-! ## Arrangements -/

/-- **Chords on a grid.** An arrangement has a chord for each step that sounds, in their order: it lasts a step, has the
notes of the lines that sound, and is loud where the step is accented. All the waits and lengths before a chord, and its
own wait, add up to its step. That is where the chord starts: grace notes do not move the cursor, and without them the
chords are the same. Silent steps at the end of the pattern could as well be missing. -/
theorem chords_on_grid {p : Pattern} {name : String} {s : Settings} {a : Arrangement}
    (h : p.arrange name s = .ok a) :
    ∃ (step grace : Int) (waits : List Int), Meter.ofLength p.length s.noteDuration = .ok a.meter ∧
      tickDuration a.meter.code = .ok step ∧ tickDuration s.flamDuration = .ok grace ∧
      waits.length = p.soundingSteps.length ∧
      a.track.events.filter (·.tick.isNone) =
        List.zipWith (p.chordAt (s.feel step grace)) p.soundingSteps waits ∧
      (∀ (k n : Nat) (wait : Int), p.soundingSteps[k]? = some n → waits[k]? = some wait →
        ((waits.take k).map (· + step)).sum + wait = n * step) ∧
      OnGrid step 0 p.soundingSteps a.track.events ∧
      p.arrange name { s with noFlams := true } =
        .ok ⟨{ a.track with events := a.track.events.filter (·.tick.isNone) }, a.meter⟩ ∧
      ∀ n : Nat, (n : Int) ≤ p.length → (∀ k : Nat, n ≤ k → (k : Int) < p.length → p.soundsOn k = false) →
        { p with length := n }.events (s.feel step grace) = .ok a.track.events := by
  obtain ⟨named, signed, step, grace, hnamed, hmeter, hsigned, hstep, hgrace, hevents, hmetas⟩ :=
    Pattern.arrange_iff.1 h
  obtain ⟨waits, hlength, hchords, hwaits, hgrid⟩ := Pattern.exists_waits_of_events hevents
  refine ⟨step, grace, waits, hmeter, hstep, hgrace, hlength, hchords, hwaits, hgrid, ?_, ?_⟩
  · exact Pattern.arrange_iff.2 ⟨named, signed, step, grace, hnamed, hmeter, hsigned, hstep, hgrace,
      Pattern.eventsFrom_noFlams hevents, hmetas⟩
  · intro n hn hsilent
    have hall : p.eventsFrom (s.feel step grace) 0 (List.range (n + (p.length.toNat - n))) = .ok a.track.events := by
      rw [Nat.add_sub_cancel' (by omega)]
      exact hevents
    rw [List.range_add] at hall
    have hcut := Pattern.eventsFrom_of_append (fun k hk => ?_) hall
    · exact (Pattern.eventsFrom_length n).trans hcut
    · obtain ⟨j, hj, rfl⟩ := List.mem_map.1 hk
      have := List.mem_range.1 hj
      exact hsilent (n + j) (by omega) (by omega)

/-! ## Rests between hits -/

/-- a flam on the second step, a rest, a chord on the fourth, and a rest at the end -/
def groove : Pattern :=
  ⟨[⟨36, ['x', '-', '-', 'X', '-']⟩, ⟨38, ['-', 'f', '-', 'x', '-']⟩], [false, false, false, true, false], 5⟩

/-- steps of a length that options do not accept -/
def sixths : Settings := { Settings.standard with noteDuration := .int 12 }

/-- the third chord waits for the silent step before it, and not for the grace note -/
theorem chords_on_grid_groove : ∃ a : Arrangement, groove.arrange "groove.pat" sixths = .ok a ∧
    a.track.events.filter (·.tick.isNone) =
      [{ pitches := [36], duration := 85, velocity := 80 }, { pitches := [38], duration := 85, velocity := 80 },
        { pitches := [36, 38], duration := 85, velocity := 100, wait := 85 }] := by
  have hcount : (groove.arrange "groove.pat" sixths).map (fun a => a.track.events.length) = .ok 4 := by decide +kernel
  obtain ⟨a, harrange, -⟩ := map_eq_ok.1 hcount
  obtain ⟨step, grace, waits, hmeter, hstep, -, hlength, hchords, hwaits, -⟩ := chords_on_grid harrange
  have hmeter' : Meter.ofLength groove.length sixths.noteDuration = .ok ⟨5, 8, .double (.finite 6)⟩ := by
    decide +kernel
  have hstep' : tickDuration (.double (.finite 6)) = .ok 85 := by decide +kernel
  rw [← Except.ok.inj (hmeter'.symm.trans hmeter)] at hstep
  obtain rfl := Except.ok.inj (hstep'.symm.trans hstep)
  have hsteps : groove.soundingSteps = [0, 1, 3] := by decide +kernel
  rw [hsteps] at hlength hchords hwaits
  obtain ⟨first, second, third, rfl⟩ := List.length_eq_three.1 hlength
  have hfirst := hwaits 0 0 first rfl rfl
  have hsecond := hwaits 1 1 second rfl rfl
  have hthird := hwaits 2 3 third rfl rfl
  simp only [List.take_zero, List.take_succ_cons, List.map_cons, List.map_nil, List.sum_cons, List.sum_nil] at *
  obtain rfl : first = 0 := by omega
  obtain rfl : second = 0 := by omega
  obtain rfl : third = 85 := by omega
  exact ⟨a, harrange, hchords⟩

end Drumline
