/-
Where grace notes sound. Settings that are accepted leave room for two of them in a step (`room_of_check`), and then
every grace note starts and ends strictly between two steps: right before its own step, and for want of such a place
behind the start if its step is the first. So grace notes of different steps keep apart (`graceEnd_lt_graceTick`). The
exception are those of the first two steps where a step has room for no more than two: they coincide.

Main result: `grace_notes_within_steps`.
-/
import Drumline.Proofs.Arrangement.Grid
import Drumline.Proofs.Track.Merge

namespace Drumline

open Midi

/-! ## Model -/

/-- where the grace note of a step ends -/
def Feel.graceEnd (feel : Feel) (step : Nat) : Int := feel.graceTick step + (feel.flamTicks - 1)

/-- whether a grace note sounds, and a step is as long as two of them or has room for a third -/
structure Feel.Roomy (feel : Feel) : Prop where
  grace : 2 ≤ feel.flamTicks
  step : feel.stepTicks = 2 * feel.flamTicks ∨ 3 * feel.flamTicks ≤ feel.stepTicks

/-- whether an event is one note alone, which starts and ends at given ticks wherever the cursor is -/
structure NoteEvent.Alone (e : NoteEvent) (note start stop : Int) : Prop where
  pitches : e.pitches = [.int note]
  begins : ∀ cursor, e.start cursor = .ok (.int start)
  ends : (Number.int start).add e.duration = .ok (.int stop)
  placed : ∀ cursor placed next, e.place cursor = .ok (placed, next) → next = cursor ∧
    ∃ n velocity : DataByte, (n : Int) = note ∧
      placed = [⟨.int start, .noteOn 0 n velocity⟩, ⟨.int stop, .noteOff 0 n velocity⟩]

/-! ## Ticks -/

namespace Feel

variable {feel : Feel}

theorem Roomy.two_mul_le (h : feel.Roomy) : 2 * feel.flamTicks ≤ feel.stepTicks := by
  have := h.grace
  rcases h.step with h | h <;> omega

theorem mul_stepTicks_le (h : feel.Roomy) {m n : Nat} (hle : m ≤ n) : m * feel.stepTicks ≤ n * feel.stepTicks := by
  have := h.grace
  have := h.two_mul_le
  exact Int.mul_le_mul_of_nonneg_right (by omega) (by omega)

theorem graceTick_zero (h : feel.Roomy) : feel.graceTick 0 = feel.flamTicks := by
  have := h.grace
  rw [graceTick, Nat.cast_zero, zero_mul]
  exact if_pos (by omega)

theorem graceTick_succ (h : feel.Roomy) (step : Nat) :
    feel.graceTick (step + 1) = (step + 1 : Nat) * feel.stepTicks - feel.flamTicks := by
  have hstep := mul_stepTicks_le h (Nat.zero_le step)
  have := succ_mul_ticks step feel.stepTicks
  have := h.grace
  have := h.two_mul_le
  rw [graceTick]
  exact if_neg (by omega)

/-- a grace note ends right before its step, unless there is none before it -/
theorem graceEnd_succ (h : feel.Roomy) (step : Nat) :
    feel.graceEnd (step + 1) = (step + 1 : Nat) * feel.stepTicks - 1 := by
  rw [graceEnd, graceTick_succ h]
  ring

theorem lt_graceTick_succ (h : feel.Roomy) (step : Nat) : step * feel.stepTicks < feel.graceTick (step + 1) := by
  have := h.grace
  have := h.two_mul_le
  rw [graceTick_succ h, succ_mul_ticks]
  omega

theorem graceTick_lt_graceEnd (h : feel.Roomy) (step : Nat) : feel.graceTick step < feel.graceEnd step := by
  have := h.grace
  rw [graceEnd]
  omega

theorem graceEnd_zero_lt (h : feel.Roomy) : feel.graceEnd 0 < feel.stepTicks := by
  have := h.grace
  have := h.two_mul_le
  rw [graceEnd, graceTick_zero h]
  omega

/-- a grace note ends before the step after its own -/
theorem graceEnd_lt (h : feel.Roomy) (step : Nat) : feel.graceEnd step < (step + 1 : Nat) * feel.stepTicks := by
  cases step with
  | zero =>
    rw [Nat.zero_add, Nat.cast_one, one_mul]
    exact graceEnd_zero_lt h
  | succ step =>
    have := mul_stepTicks_le h (Nat.le_add_right (step + 1) 1)
    rw [graceEnd_succ h]
    omega

/-- a grace note starts and ends strictly between two steps -/
theorem exists_between (h : feel.Roomy) (step : Nat) :
    ∃ n : Nat, n * feel.stepTicks < feel.graceTick step ∧ feel.graceEnd step < (n + 1 : Nat) * feel.stepTicks := by
  cases step with
  | zero =>
    have := h.grace
    have := graceTick_zero h
    exact ⟨0, by rw [Nat.cast_zero, zero_mul]; omega, graceEnd_lt h 0⟩
  | succ step =>
    have := graceEnd_succ h step
    exact ⟨step, lt_graceTick_succ h step, by omega⟩

/-- **Grace notes keep apart.** That of a step ends before that of any later step starts, but for the first two steps
where these have no room for a third grace note. -/
theorem graceEnd_lt_graceTick (h : feel.Roomy) {m n : Nat} (hlt : m < n)
    (hne : ¬(m = 0 ∧ n = 1 ∧ feel.stepTicks = 2 * feel.flamTicks)) : feel.graceEnd m < feel.graceTick n := by
  obtain ⟨n, rfl⟩ := Nat.exists_eq_add_one_of_ne_zero (Nat.ne_zero_of_lt hlt)
  have hgrace := h.grace
  cases m with
  | zero =>
    -- the grace note of the first step stands behind its step, where it may meet that of the second
    rw [graceEnd, graceTick_zero h]
    rcases Nat.eq_zero_or_pos n with rfl | hn
    · have hthree := h.step.resolve_left fun htwo => hne ⟨rfl, rfl, htwo⟩
      rw [graceTick_succ h, Nat.cast_one, one_mul]
      omega
    · have hone := mul_stepTicks_le h hn
      rw [Nat.cast_one, one_mul] at hone
      have := lt_graceTick_succ h n
      have := h.two_mul_le
      omega
  | succ m =>
    have hbefore := mul_stepTicks_le h (Nat.le_of_lt_succ hlt)
    have := lt_graceTick_succ h n
    rw [graceEnd_succ h]
    omega

/-- where a step has no room for a third grace note, the first two steps have theirs together -/
theorem graceTick_one_eq (h : feel.Roomy) (htwo : feel.stepTicks = 2 * feel.flamTicks) :
    feel.graceTick 1 = feel.graceTick 0 := by
  rw [graceTick_succ h, graceTick_zero h, Nat.cast_one, one_mul]
  omega

end Feel

/-- **Room for grace notes.** Settings that are accepted leave room for two in a step. -/
theorem room_of_check {o : Options} {s : Settings} (hcheck : o.check = .ok s) {length step grace : Int} {meter : Meter}
    (hmeter : Meter.ofLength length s.noteDuration = .ok meter) (hstep : tickDuration meter.code = .ok step)
    (hgrace : tickDuration s.flamDuration = .ok grace) : (s.feel step grace).Roomy := by
  have hroom : ∀ code ∈ NoteLength.steps, ∀ grace ∈ NoteLength.graces, code < grace →
      2 ≤ 512 / grace ∧ (512 / code = 2 * (512 / grace) ∨ 3 * (512 / grace) ≤ 512 / code) ∧
        (1024 / code = 2 * (512 / grace) ∨ 3 * (512 / grace) ≤ 1024 / code) := by decide
  obtain ⟨code, hcode, -, flam, hflam, hlt, meter', step', hmeter', hstep', hgrace', hform⟩ :=
    exists_meter hcheck length
  obtain rfl := Except.ok.inj (hmeter'.symm.trans hmeter)
  obtain rfl := Except.ok.inj (hstep'.symm.trans hstep)
  obtain rfl := Except.ok.inj (hgrace'.symm.trans hgrace)
  obtain ⟨htwo, hquarters, heighths⟩ := hroom code hcode flam hflam hlt
  have htwice : step' = 2 * (512 / flam) ∨ 3 * (512 / flam) ≤ step' := by
    rcases hform with ⟨-, -, rfl⟩ | ⟨-, rfl⟩
    · exact hquarters
    · exact heighths
  exact ⟨Int.ofNat_le.2 htwo, htwice.imp (fun h => congrArg Int.ofNat h) Int.ofNat_le.2⟩

/-! ## Events -/

/-- an event of one pitch with a tick is a note alone -/
theorem NoteEvent.alone_of_tick {e : NoteEvent} {note start ticks : Int} (hpitches : e.pitches = [.int note])
    (htick : e.tick = some (.int start)) (hduration : e.duration = .int ticks) (hchannel : e.channel = 0) :
    e.Alone note start (start + ticks) := by
  have hstart (cursor : Number) : e.start cursor = .ok (.int start) := by rw [NoteEvent.start, htick]
  have hstop : (Number.int start).add e.duration = .ok (.int (start + ticks)) := by rw [hduration, Number.add_int]
  refine ⟨hpitches, hstart, hstop, fun cursor placed next h => ?_⟩
  obtain ⟨start', stop', velocity, values, hstart', hstop', hvalues, rfl, rfl⟩ := NoteEvent.place_eq_ok h
  obtain rfl := Except.ok.inj ((hstart cursor).symm.trans hstart')
  obtain rfl := Except.ok.inj (hstop.symm.trans hstop')
  refine ⟨by rw [htick]; rfl, ?_⟩
  have hnotes := NoteEvent.pitches_eq_of_values hvalues
  obtain ⟨v, rfl⟩ : ∃ v, values = [v] := by
    rw [← List.length_eq_one_iff, ← List.length_map, ← hnotes, hpitches]
    rfl
  obtain ⟨hnote, -⟩ := List.cons.inj (hpitches.symm.trans hnotes)
  obtain ⟨pitch, -, hvalue⟩ := exists_of_mem_right (mapM_eq_ok.1 hvalues) (List.mem_singleton_self v)
  have hfirst := (NoteEvent.values_eq_ok hvalue).1
  rw [hchannel] at hfirst
  have hzero : (0 : Channel) = v.1 := Except.ok.inj hfirst
  refine ⟨v.2.1, v.2.2, (Number.int.inj hnote).symm, ?_⟩
  rw [hzero]
  rfl

theorem Pattern.alone_graceAt (p : Pattern) (feel : Feel) (step : Nat) (hit : Hit) :
    (p.graceAt feel step hit).Alone hit.note (feel.graceTick step) (feel.graceEnd step) :=
  NoteEvent.alone_of_tick rfl rfl rfl rfl

/-- **Grace notes stay within a step.** Under settings that are accepted and want grace notes, a grace note is two ticks
at least and half a step at most. An arrangement has one for each flam, and for nothing else, with the note of the flam
alone. It starts behind the step before its own and ends one tick before its own, or starts behind the first step and
ends before the second if its step is the first: strictly between two steps in either case, while the chords stand on
them. Those of one step end before those of a later step start, except that on the first two steps they coincide if a
step is as long as two of them. -/
theorem grace_notes_within_steps {p : Pattern} {name : String} {o : Options} {s : Settings} {a : Arrangement}
    (hcheck : o.check = .ok s) (hflams : s.noFlams = false) (h : p.arrange name s = .ok a) :
    ∃ (step grace : Int) (feel : Feel), tickDuration a.meter.code = .ok step ∧
      tickDuration s.flamDuration = .ok grace ∧ feel = s.feel step grace ∧ 2 ≤ grace ∧ 2 * grace ≤ step ∧
      a.track.events.filter (·.tick.isSome) =
        (List.range p.length.toNat).flatMap (fun n => (p.flams n).map (p.graceAt feel n)) ∧
      (∀ n hit, (p.graceAt feel n hit).Alone hit.note (feel.graceTick n) (feel.graceEnd n)) ∧
      feel.graceTick 0 = grace ∧ feel.graceEnd 0 < step ∧
      (∀ n : Nat, n * step < feel.graceTick (n + 1) ∧ feel.graceEnd (n + 1) = (n + 1 : Nat) * step - 1) ∧
      (∀ n, ∃ k : Nat, k * step < feel.graceTick n ∧ feel.graceTick n < feel.graceEnd n ∧
        feel.graceEnd n < (k + 1 : Nat) * step) ∧
      (∀ m n, m < n → if m = 0 ∧ n = 1 ∧ step = 2 * grace
        then feel.graceTick m = feel.graceTick n ∧ feel.graceEnd m = feel.graceEnd n
        else feel.graceEnd m < feel.graceTick n) ∧
      OnGrid step 0 p.soundingSteps a.track.events := by
  obtain ⟨-, -, step, grace, -, hmeter, -, hstep, hgrace, hevents, -⟩ := Pattern.arrange_iff.1 h
  have hroom := room_of_check hcheck hmeter hstep hgrace
  refine ⟨step, grace, s.feel step grace, hstep, hgrace, rfl, hroom.grace, hroom.two_mul_le, ?_,
    p.alone_graceAt (s.feel step grace), Feel.graceTick_zero hroom, Feel.graceEnd_zero_lt hroom,
    fun n => ⟨Feel.lt_graceTick_succ hroom n, Feel.graceEnd_succ hroom n⟩, fun n => ?_, fun m n hlt => ?_, ?_⟩
  · rw [Pattern.graces_of_eventsFrom hevents]
    refine congrArg (List.flatMap · _) (funext fun n => ?_)
    rw [Pattern.gracesAt, if_neg]
    rw [Settings.feel, hflams]
    exact Bool.false_ne_true
  · obtain ⟨k, hlow, hhigh⟩ := Feel.exists_between hroom n
    exact ⟨k, hlow, Feel.graceTick_lt_graceEnd hroom n, hhigh⟩
  · split
    · rename_i hfirst
      obtain ⟨rfl, rfl, htwo⟩ := hfirst
      have hsame := (Feel.graceTick_one_eq hroom htwo).symm
      exact ⟨hsame, congrArg (· + (grace - 1)) hsame⟩
    · rename_i hne
      exact Feel.graceEnd_lt_graceTick hroom hlt hne
  · obtain ⟨-, -, -, -, hgrid⟩ := Pattern.exists_waits_of_events hevents
    exact hgrid

/-! ## Flams on the first two steps -/

/-- a snare with flams on the first two of eight steps -/
def ruff : Pattern := ⟨[⟨38, ['f', 'f', '-', '-', '-', '-', '-', '-']⟩], [], 8⟩

/-- steps as short as the grace notes of the default options allow -/
def thirtySeconds : Settings := { Settings.standard with noteDuration := .int 32 }

/-- a step is as long as two grace notes, and both start on the eighth tick -/
theorem grace_notes_within_steps_ruff : ∃ a : Arrangement,
    Options.check { noteDuration := .int 32 } = .ok thirtySeconds ∧ thirtySeconds.noFlams = false ∧
    ruff.arrange "ruff.pat" thirtySeconds = .ok a ∧ OnGrid 16 0 [0, 1] a.track.events ∧
    a.track.events.filter (·.tick.isSome) =
      [{ pitches := [38], duration := 7, velocity := 60, tick := some 8 },
        { pitches := [38], duration := 7, velocity := 60, tick := some 8 }] := by
  have hcheck : Options.check { noteDuration := .int 32 } = .ok thirtySeconds := by decide +kernel
  have hmeter : (ruff.arrange "ruff.pat" thirtySeconds).map (·.meter) = .ok ⟨2, 4, .int 32⟩ := by decide +kernel
  have hstep' : tickDuration (.int 32) = .ok 16 := by decide +kernel
  have hgrace' : tickDuration thirtySeconds.flamDuration = .ok 8 := by decide +kernel
  have hsteps : ruff.soundingSteps = [0, 1] := by decide +kernel
  obtain ⟨a, harrange, hmeter⟩ := map_eq_ok.1 hmeter
  obtain ⟨step, grace, feel, hstep, hgrace, rfl, -, -, hgraces, -, -, -, -, -, -, hgrid⟩ :=
    grace_notes_within_steps hcheck rfl harrange
  rw [hmeter] at hstep
  obtain rfl := Except.ok.inj (hstep'.symm.trans hstep)
  obtain rfl := Except.ok.inj (hgrace'.symm.trans hgrace)
  rw [hsteps] at hgrid
  refine ⟨a, hcheck, rfl, harrange, hgrid, hgraces.trans ?_⟩
  decide +kernel

end Drumline
