/-
What settings that are accepted make of a pattern, also where their codes and velocities are doubles.

Such settings have a feel that is valid (`exists_feel`): steps and grace notes last, by the codes of the settings
(`exists_meter`), and velocities make data bytes. A valid feel makes steady events (`steady_of_mem_eventsFrom`), and
makes them of every even pattern (`exists_events`). `eventsFrom_cons_eq_ok` says what one step adds to the run, whose
invariant is that the wait is not negative. What keeps the events from making messages is a note that sounds and is no
data byte, and nothing else (`exists_not_inRange_iff`).

Main results: `arrange_eq_ok` says what an arrangement consists of, `exists_arrange` and `arrange_of_lt_numerator` for
which patterns there is one.
-/
import Drumline.Proofs.Arrangement.Conversion
import Drumline.Proofs.Track.Steady

namespace Drumline

open Midi

/-! ## Model -/

/-- whether a step lasts, a grace note lasts although a tick is taken off, and the velocities make data bytes -/
structure Feel.Valid (feel : Feel) : Prop where
  step : 1 ≤ feel.stepTicks
  grace : 2 ≤ feel.flamTicks
  accent : Velocity.Fits feel.accentVelocity
  normal : Velocity.Fits feel.normalVelocity
  flam : Velocity.Fits feel.flamVelocity

def Settings.feel (s : Settings) (step grace : Int) : Feel :=
  ⟨step, grace, s.accentVelocity, s.normalVelocity, s.flamVelocity, s.noFlams⟩

/-- whether a line sounds whose note messages cannot hold -/
def Pattern.Unplayable (p : Pattern) : Prop :=
  ∃ hit ∈ p.hits, ¬(0 ≤ hit.note ∧ hit.note ≤ 127) ∧
    ∃ step : Nat, (step : Int) < p.length ∧ hit.plays ['x', 'X', 'f', 'F'] step = true

/-! ## Settings -/

/-- **The lengths of settings.** Settings that are accepted have a code for a step and a greater one for a grace note,
and give every number of steps a meter. Under it a step is as long as its code says in quarters, twice as long in
eighths. -/
theorem exists_meter {o : Options} {s : Settings} (hcheck : o.check = .ok s) (length : Int) :
    ∃ code ∈ NoteLength.steps, Number.eqv s.noteDuration (.int code) = true ∧
      ∃ grace ∈ NoteLength.graces, code < grace ∧ ∃ (meter : Meter) (step : Nat),
      Meter.ofLength length s.noteDuration = .ok meter ∧ tickDuration meter.code = .ok step ∧
      tickDuration s.flamDuration = .ok (512 / grace : Nat) ∧
      ((length % 8 = 0 ∧ meter = ⟨length / 4, 4, meter.code⟩ ∧ step = 512 / code) ∨
        (meter = ⟨length, 8, meter.code⟩ ∧ step = 1024 / code)) := by
  have hbounded := Options.check_bounded hcheck
  obtain ⟨code, hcode, hnote⟩ := hbounded.noteDuration
  obtain ⟨grace, hgraces, hgrace⟩ := hbounded.flamDuration
  obtain ⟨hticks, half, hhalf, hdouble⟩ := tickDuration_step_of_eqv hcode hnote
  have hlt : code < grace := by
    have hshorter := hbounded.flamShorter
    rw [Number.le_of_eqv hgrace hnote, Number.le_int_int, decide_eq_false_iff_not] at hshorter
    omega
  refine ⟨code, hcode, hnote, grace, hgraces, hlt, ?_⟩
  by_cases heights : length % 8 = 0
  · refine ⟨⟨length / 4, 4, s.noteDuration⟩, _, ?_, hticks, tickDuration_grace_of_eqv hgraces hgrace,
      .inl ⟨heights, rfl, rfl⟩⟩
    rw [Meter.ofLength, if_pos heights]
  · refine ⟨⟨length, 8, .double half⟩, _, ?_, hdouble, tickDuration_grace_of_eqv hgraces hgrace, .inr ⟨rfl, rfl⟩⟩
    rw [Meter.ofLength, if_neg heights, hhalf]
    rfl

/-- **The feel of settings.** Settings that are accepted give every number of steps a meter, and a feel under it. -/
theorem exists_feel {o : Options} {s : Settings} (hcheck : o.check = .ok s) (length : Int) :
    ∃ (meter : Meter) (step grace : Int), Meter.ofLength length s.noteDuration = .ok meter ∧
      (meter = ⟨length / 4, 4, meter.code⟩ ∨ meter = ⟨length, 8, meter.code⟩) ∧
      tickDuration meter.code = .ok step ∧ tickDuration s.flamDuration = .ok grace ∧ (s.feel step grace).Valid := by
  have hbounded := Options.check_bounded hcheck
  obtain ⟨code, hcode, -, grace, hgraces, -, meter, step, hmeter, hstep, hgrace, hform⟩ := exists_meter hcheck length
  have hsteps : ∀ code ∈ NoteLength.steps, 1 ≤ 512 / code ∧ 1 ≤ 1024 / code := by decide
  have hgraces' : ∀ grace ∈ NoteLength.graces, 2 ≤ 512 / grace := by decide
  have hpos : 1 ≤ step := by
    rcases hform with ⟨-, -, rfl⟩ | ⟨-, rfl⟩
    · exact (hsteps code hcode).1
    · exact (hsteps code hcode).2
  exact ⟨meter, step, (512 / grace : Nat), hmeter, hform.imp (·.2.1) (·.1), hstep, hgrace,
    Int.ofNat_le.2 hpos, Int.ofNat_le.2 (hgraces' grace hgraces),
    Velocity.exists_toData hbounded.accentVelocity.1 hbounded.accentVelocity.2,
    Velocity.exists_toData hbounded.normalVelocity.1 hbounded.normalVelocity.2,
    Velocity.exists_toData hbounded.flamVelocity.1 hbounded.flamVelocity.2⟩

theorem val_of_attributeUpTo {n : Nat} {value : Int} {x : Fin (n + 1)} (h : attributeUpTo n (.int value) = .ok x) :
    (x : Int) = value := by
  have hbounds := bounds_of_attributeUpTo h
  obtain rfl := Except.ok.inj ((attributeUpTo_of_bounds hbounds).symm.trans h)
  exact val_wrapped hbounds

/-! ## Events -/

namespace Feel

variable {feel : Feel} {step : Nat} {accented : Bool} {wait : Int} {strikes : List Strike} {e : NoteEvent}

theorem mem_stepEvents (h : e ∈ feel.stepEvents step accented wait strikes) :
    (∃ strike ∈ strikes, e = feel.grace step accented strike) ∨ e = feel.chord accented wait strikes := by
  rcases List.mem_append.1 h with h | h
  · split at h
    · exact (List.not_mem_nil h).elim
    · obtain ⟨strike, hstrike, rfl⟩ := List.mem_map.1 h
      exact .inl ⟨strike, List.mem_of_mem_filter hstrike, rfl⟩
  · exact .inr (List.mem_singleton.1 h)

theorem chord_mem_stepEvents : feel.chord accented wait strikes ∈ feel.stepEvents step accented wait strikes :=
  List.mem_append_right _ (List.mem_singleton_self _)

theorem graceTick_nonneg (h : feel.Valid) : 0 ≤ feel.graceTick step := by
  have := h.grace
  unfold graceTick
  simp only
  split <;> omega

theorem steady_grace (h : feel.Valid) (strike : Strike) : (feel.grace step accented strike).Steady where
  duration := by
    have := h.grace
    refine ⟨(feel.flamTicks - 1).toNat, by omega, ?_⟩
    rw [Int.toNat_of_nonneg (by omega)]
    rfl
  wait := ⟨0, rfl⟩
  tick tick htick := by
    obtain rfl := Option.some.inj htick
    exact ⟨(feel.graceTick step).toNat, by rw [Int.toNat_of_nonneg (graceTick_nonneg h)]⟩
  pitches pitch hpitch := ⟨strike.note, List.mem_singleton.1 hpitch⟩
  channel := rfl
  velocity := by
    unfold grace
    split
    · exact h.accent
    · exact h.flam

theorem steady_chord (h : feel.Valid) (hwait : 0 ≤ wait) : (feel.chord accented wait strikes).Steady where
  duration := by
    have := h.step
    refine ⟨feel.stepTicks.toNat, by omega, ?_⟩
    rw [Int.toNat_of_nonneg (by omega)]
    rfl
  wait := ⟨wait.toNat, by rw [Int.toNat_of_nonneg hwait]; rfl⟩
  tick tick htick := by cases htick
  pitches pitch hpitch := by
    obtain ⟨strike, -, rfl⟩ := List.mem_map.1 hpitch
    exact ⟨strike.note, rfl⟩
  channel := rfl
  velocity := by
    unfold chord
    split
    · exact h.accent
    · exact h.normal

/-- of the events of a step only the chord has no tick -/
theorem filter_isNone_stepEvents (feel : Feel) (step : Nat) (accented : Bool) (wait : Int) (strikes : List Strike) :
    (feel.stepEvents step accented wait strikes).filter (·.tick.isNone) = [feel.chord accented wait strikes] := by
  unfold stepEvents
  rw [List.filter_append, List.filter_eq_nil_iff.2, List.nil_append]
  · rfl
  · intro e he
    split at he
    · exact (List.not_mem_nil he).elim
    · obtain ⟨strike, -, rfl⟩ := List.mem_map.1 he
      exact Bool.false_ne_true

theorem stepEvents_noFlams (feel : Feel) (step : Nat) (accented : Bool) (wait : Int) (strikes : List Strike) :
    { feel with noFlams := true }.stepEvents step accented wait strikes =
    [feel.chord accented wait strikes] := rfl

/-- what the events of a step have for pitches are notes of the step -/
theorem note_mem_of_mem_stepEvents (h : e ∈ feel.stepEvents step accented wait strikes) {note : Int}
    (hnote : .int note ∈ e.pitches) : ∃ strike ∈ strikes, strike.note = note := by
  rcases mem_stepEvents h with ⟨strike, hstrike, rfl⟩ | rfl
  · exact ⟨strike, hstrike, Number.int.inj (List.mem_singleton.1 hnote).symm⟩
  · obtain ⟨strike, hstrike, hnote⟩ := List.mem_map.1 hnote
    exact ⟨strike, hstrike, Number.int.inj hnote⟩

end Feel

namespace Pattern

variable {p : Pattern} {feel : Feel} {wait : Int} {steps : List Nat} {events : List NoteEvent}

theorem eventsFrom_of_error {step : Nat} {e : StepError} (h : p.strikes step = .error e) :
    p.eventsFrom feel wait (step :: steps) = .error e :=
  bind_of_error h

theorem eventsFrom_of_silent {step : Nat} (h : p.strikes step = .ok []) :
    p.eventsFrom feel wait (step :: steps) = p.eventsFrom feel (wait + feel.stepTicks) steps := by
  rw [eventsFrom, bind_of_ok h, if_pos rfl]

theorem eventsFrom_of_sounding {step : Nat} {strikes : List Strike} (h : p.strikes step = .ok strikes)
    (hne : strikes ≠ []) :
    p.eventsFrom feel wait (step :: steps) =
      (p.eventsFrom feel 0 steps).map (feel.stepEvents step (p.accented step) wait strikes ++ ·) := by
  rw [eventsFrom, bind_of_ok h, if_neg hne, bind_of_ok (isAccented_eq p step)]
  cases p.eventsFrom feel 0 steps with
  | error e => rfl
  | ok others => rfl

/-- **One step of the run.** A step on which nothing sounds adds its length to the wait. Any other adds its events after
the wait so far, and the wait begins anew. -/
theorem eventsFrom_cons_eq_ok {step : Nat} : p.eventsFrom feel wait (step :: steps) = .ok events ↔
    ∃ strikes, p.strikes step = .ok strikes ∧
      ((strikes = [] ∧ p.eventsFrom feel (wait + feel.stepTicks) steps = .ok events) ∨
        (strikes ≠ [] ∧ ∃ others, p.eventsFrom feel 0 steps = .ok others ∧
          events = feel.stepEvents step (p.accented step) wait strikes ++ others)) := by
  cases hstrikes : p.strikes step with
  | error e => simp [eventsFrom_of_error hstrikes]
  | ok strikes =>
    by_cases hsilent : strikes = []
    · subst hsilent
      simp [eventsFrom_of_silent hstrikes]
    · rw [eventsFrom_of_sounding hstrikes hsilent, map_eq_ok]
      simp [hsilent, eq_comm]

/-- an event of some steps is one of a step among them -/
theorem mem_eventsFrom (hfeel : feel.Valid) (hwait : 0 ≤ wait) (h : p.eventsFrom feel wait steps = .ok events)
    {e : NoteEvent} (he : e ∈ events) : ∃ step ∈ steps, ∃ strikes accented wait', p.strikes step = .ok strikes ∧
      0 ≤ wait' ∧ e ∈ feel.stepEvents step accented wait' strikes := by
  have hlasts := hfeel.step
  induction steps generalizing wait events with
  | nil =>
    cases h
    exact (List.not_mem_nil he).elim
  | cons first steps ih =>
    obtain ⟨strikes, hstrikes, ⟨-, h⟩ | ⟨-, others, hothers, rfl⟩⟩ := eventsFrom_cons_eq_ok.1 h
    · obtain ⟨step, hmem, hstep⟩ := ih (by omega) h he
      exact ⟨step, List.mem_cons_of_mem _ hmem, hstep⟩
    · rcases List.mem_append.1 he with he | he
      · exact ⟨first, List.mem_cons_self, strikes, p.accented first, wait, hstrikes, hwait, he⟩
      · obtain ⟨step, hmem, hstep⟩ := ih le_rfl hothers he
        exact ⟨step, List.mem_cons_of_mem _ hmem, hstep⟩

/-- **Events are steady.** A valid feel makes no others. -/
theorem steady_of_mem_eventsFrom (hfeel : feel.Valid) (hwait : 0 ≤ wait)
    (h : p.eventsFrom feel wait steps = .ok events) {e : NoteEvent} (he : e ∈ events) : e.Steady := by
  obtain ⟨step, -, strikes, accented, wait', -, hwait', he⟩ := mem_eventsFrom hfeel hwait h he
  rcases Feel.mem_stepEvents he with ⟨strike, -, rfl⟩ | rfl
  · exact Feel.steady_grace hfeel strike
  · exact Feel.steady_chord hfeel hwait'

/-- what sounds on a step is in the chord of the step -/
theorem exists_chord_mem (h : p.eventsFrom feel wait steps = .ok events) {step : Nat} (hstep : step ∈ steps)
    {strikes : List Strike} (hstrikes : p.strikes step = .ok strikes) (hne : strikes ≠ []) :
    ∃ accented wait', feel.chord accented wait' strikes ∈ events := by
  induction steps generalizing wait events with
  | nil => exact (List.not_mem_nil hstep).elim
  | cons first steps ih =>
    obtain ⟨found, hfound, ⟨hsilent, h⟩ | ⟨-, others, hothers, rfl⟩⟩ := eventsFrom_cons_eq_ok.1 h
    · rcases List.mem_cons.1 hstep with rfl | hstep
      · exact (hne ((Except.ok.inj (hstrikes.symm.trans hfound)).trans hsilent)).elim
      · exact ih h hstep
    · rcases List.mem_cons.1 hstep with rfl | hstep
      · obtain rfl := Except.ok.inj (hstrikes.symm.trans hfound)
        exact ⟨p.accented step, wait, List.mem_append_left _ Feel.chord_mem_stepEvents⟩
      · obtain ⟨accented, wait', hmem⟩ := ih hothers hstep
        exact ⟨accented, wait', List.mem_append_right _ hmem⟩

/-- every even pattern has events -/
theorem exists_eventsFrom (h : p.Even) (feel : Feel) (hsteps : ∀ step ∈ steps, step < p.length.toNat) (wait : Int) :
    ∃ events, p.eventsFrom feel wait steps = .ok events := by
  induction steps generalizing wait with
  | nil => exact ⟨[], rfl⟩
  | cons step steps ih =>
    have hstep := hsteps step List.mem_cons_self
    have hrest (wait : Int) := ih (fun s hs => hsteps s (List.mem_cons_of_mem _ hs)) wait
    have hstrikes := strikes_eq h hstep
    by_cases hsilent : (p.sounding step).map (fun hit => Strike.mk hit.note (hit.plays ['f', 'F'] step)) = []
    · obtain ⟨others, hothers⟩ := hrest (wait + feel.stepTicks)
      exact ⟨others, eventsFrom_cons_eq_ok.2 ⟨_, hstrikes, .inl ⟨hsilent, hothers⟩⟩⟩
    · obtain ⟨others, hothers⟩ := hrest 0
      exact ⟨_, eventsFrom_cons_eq_ok.2 ⟨_, hstrikes, .inr ⟨hsilent, others, hothers, rfl⟩⟩⟩

theorem exists_events (h : p.Even) (feel : Feel) : ∃ events, p.events feel = .ok events :=
  exists_eventsFrom h feel (fun _ hstep => List.mem_range.1 hstep) 0

/-- **What cannot be played.** An event has a pitch that is no data byte exactly if a line sounds whose note is none. -/
theorem exists_not_inRange_iff (hp : p.Even) (hfeel : feel.Valid) (h : p.events feel = .ok events) :
    (∃ e ∈ events, ¬e.InRange) ↔ p.Unplayable := by
  constructor
  · rintro ⟨e, he, hrange⟩
    obtain ⟨step, hstep, strikes, accented, wait, hstrikes, -, he⟩ := mem_eventsFrom hfeel le_rfl h he
    have hlt := List.mem_range.1 hstep
    obtain rfl := Except.ok.inj (hstrikes.symm.trans (strikes_eq hp hlt))
    simp only [NoteEvent.InRange, not_forall] at hrange
    obtain ⟨note, hpitch, hnote⟩ := hrange
    obtain ⟨strike, hstrike, rfl⟩ := Feel.note_mem_of_mem_stepEvents he hpitch
    obtain ⟨hit, hhit, rfl⟩ := List.mem_map.1 hstrike
    obtain ⟨hmem, hplays⟩ := List.mem_filter.1 hhit
    exact ⟨hit, hmem, hnote, step, by omega, hplays⟩
  · rintro ⟨hit, hmem, hnote, step, hlt, hplays⟩
    have hlt' : step < p.length.toNat := by omega
    have hsounding : hit ∈ p.sounding step := List.mem_filter.2 ⟨hmem, hplays⟩
    have hne : (p.sounding step).map (fun hit => Strike.mk hit.note (hit.plays ['f', 'F'] step)) ≠ [] :=
      List.ne_nil_of_mem (List.mem_map_of_mem hsounding)
    obtain ⟨accented, wait, hchord⟩ := exists_chord_mem h (List.mem_range.2 hlt') (strikes_eq hp hlt') hne
    refine ⟨_, hchord, fun hrange => hnote (hrange hit.note ?_)⟩
    exact List.mem_map.2 ⟨_, List.mem_map_of_mem hsounding, rfl⟩

/-! ## Arrangements -/

/-- an arrangement is made in stages: name, tempo, meter, time signature, lengths and events -/
theorem arrange_iff {s : Settings} {name : String} {a : Arrangement} :
    p.arrange name s = .ok a ↔ ∃ (named signed : Track) (step grace : Int),
      (Track.empty.addName (trackNameOf name)).setTempo s.bpm = .ok named ∧
      Meter.ofLength p.length s.noteDuration = .ok a.meter ∧
      named.setTimeSignature (.int a.meter.numerator) (.int a.meter.denominator) = .ok signed ∧
      tickDuration a.meter.code = .ok step ∧ tickDuration s.flamDuration = .ok grace ∧
      p.events (s.feel step grace) = .ok a.track.events ∧ a.track.metas = signed.metas := by
  constructor
  · intro h
    obtain ⟨named, hnamed, h⟩ := bind_eq_ok.1 h
    obtain ⟨meter, hmeter, h⟩ := bind_eq_ok.1 h
    obtain ⟨signed, hsigned, h⟩ := bind_eq_ok.1 h
    obtain ⟨step, hstep, h⟩ := bind_eq_ok.1 h
    obtain ⟨grace, hgrace, h⟩ := bind_eq_ok.1 h
    obtain ⟨events, hevents, h⟩ := bind_eq_ok.1 h
    cases h
    refine ⟨named, signed, step, grace, hnamed, mapError_eq_ok.1 hmeter, hsigned, mapError_eq_ok.1 hstep,
      mapError_eq_ok.1 hgrace, ?_, rfl⟩
    obtain ⟨_, rfl⟩ := setTempo_eq_ok hnamed
    obtain ⟨_, _, _, rfl⟩ := setTimeSignature_eq_ok hsigned
    exact mapError_eq_ok.1 hevents
  · rintro ⟨named, signed, step, grace, hnamed, hmeter, hsigned, hstep, hgrace, hevents, hmetas⟩
    have htrack : signed.addEvents a.track.events = a.track := by
      obtain ⟨_, rfl⟩ := setTempo_eq_ok hnamed
      obtain ⟨_, _, _, rfl⟩ := setTimeSignature_eq_ok hsigned
      rw [Track.addEvents, ← hmetas]
      rfl
    refine bind_eq_ok.2 ⟨named, hnamed, bind_eq_ok.2 ⟨a.meter, mapError_eq_ok.2 hmeter, ?_⟩⟩
    refine bind_eq_ok.2 ⟨signed, hsigned, bind_eq_ok.2 ⟨step, mapError_eq_ok.2 hstep, ?_⟩⟩
    refine bind_eq_ok.2 ⟨grace, mapError_eq_ok.2 hgrace, bind_eq_ok.2 ⟨_, mapError_eq_ok.2 hevents, ?_⟩⟩
    rw [htrack]
    rfl

/-- the events of an arrangement are those of the feel of its settings, which is valid -/
theorem feel_of_arrange {o : Options} {s : Settings} (hcheck : o.check = .ok s) {name : String} {a : Arrangement}
    (h : p.arrange name s = .ok a) :
    ∃ step grace : Int, Meter.ofLength p.length s.noteDuration = .ok a.meter ∧
      (a.meter = ⟨p.length / 4, 4, a.meter.code⟩ ∨ a.meter = ⟨p.length, 8, a.meter.code⟩) ∧
      tickDuration a.meter.code = .ok step ∧ tickDuration s.flamDuration = .ok grace ∧ (s.feel step grace).Valid ∧
      p.events (s.feel step grace) = .ok a.track.events := by
  obtain ⟨meter, step, grace, hmeter, hform, hstep, hgrace, hfeel⟩ := exists_feel hcheck p.length
  obtain ⟨-, -, step', grace', -, hmeter', -, hstep', hgrace', hevents, -⟩ := arrange_iff.1 h
  obtain rfl := Except.ok.inj (hmeter.symm.trans hmeter')
  obtain rfl := Except.ok.inj (hstep.symm.trans hstep')
  obtain rfl := Except.ok.inj (hgrace.symm.trans hgrace')
  exact ⟨step, grace, hmeter, hform, hstep, hgrace, hfeel, hevents⟩

theorem steady_of_arrange {o : Options} {s : Settings} (hcheck : o.check = .ok s) {name : String} {a : Arrangement}
    (h : p.arrange name s = .ok a) : ∀ e ∈ a.track.events, e.Steady := by
  obtain ⟨step, grace, -, -, -, -, hfeel, hevents⟩ := feel_of_arrange hcheck h
  exact fun e he => steady_of_mem_eventsFrom hfeel le_rfl hevents he

/-- the meta messages of an arrangement; the time signature is that of its meter -/
theorem metas_eq_of_arrange {o : Options} {s : Settings} (hcheck : o.check = .ok s) {name : String} {a : Arrangement}
    (h : p.arrange name s = .ok a) :
    ∃ (tempo : BeatLength) (n : Fin 256) (d : Denominator), (n : Int) = a.meter.numerator ∧
      d.value = a.meter.denominator ∧ (d.value = 4 ∨ d.value = 8) ∧
      a.track.metas = [.trackName (trackNameOf name), .setTempo tempo, .timeSignature n d 24 8] := by
  obtain ⟨step, grace, -, hform, -⟩ := feel_of_arrange hcheck h
  obtain ⟨named, signed, -, -, hnamed, -, hsigned, -, -, -, hmetas⟩ := arrange_iff.1 h
  obtain ⟨tempo, rfl⟩ := setTempo_eq_ok hnamed
  obtain ⟨n, hn, hsigned⟩ := bind_eq_ok.1 hsigned
  obtain ⟨d, hd, hsigned⟩ := bind_eq_ok.1 hsigned
  cases hsigned
  have hvalue : d.value = a.meter.denominator := by
    exact_mod_cast value_of_denominator_eq_ok (mapError_eq_ok.1 hd)
  refine ⟨tempo, n, d, val_of_attributeUpTo (mapError_eq_ok.1 hn), hvalue, ?_, hmetas⟩
  rw [hvalue]
  exact hform.imp (congrArg Meter.denominator) (congrArg Meter.denominator)

/-- **What an arrangement consists of.** Three meta messages, and the events of a valid feel. -/
theorem arrange_eq_ok {o : Options} {s : Settings} (hcheck : o.check = .ok s) {name : String} {a : Arrangement}
    (h : p.arrange name s = .ok a) :
    ∃ (tempo : BeatLength) (n : Fin 256) (d : Denominator) (feel : Feel), (d.value = 4 ∨ d.value = 8) ∧ feel.Valid ∧
      a.track.metas = [.trackName (trackNameOf name), .setTempo tempo, .timeSignature n d 24 8] ∧
      p.events feel = .ok a.track.events := by
  obtain ⟨step, grace, -, -, -, -, hfeel, hevents⟩ := feel_of_arrange hcheck h
  obtain ⟨tempo, n, d, -, -, hpower, hmetas⟩ := metas_eq_of_arrange hcheck h
  exact ⟨tempo, n, d, s.feel step grace, hpower, hfeel, hmetas, hevents⟩

/-- a pattern whose numerator is a byte can be arranged -/
theorem exists_arrange (hp : p.Even) (hlength : 0 ≤ p.length) {o : Options} {s : Settings} (hcheck : o.check = .ok s)
    (name : String) {meter : Meter} (hmeter : Meter.ofLength p.length s.noteDuration = .ok meter)
    (hnumerator : meter.numerator ≤ 255) : ∃ track, p.arrange name s = .ok ⟨track, meter⟩ := by
  obtain ⟨meter', step, grace, hmeter', hform, hstep, hgrace, -⟩ := exists_feel hcheck p.length
  obtain rfl := Except.ok.inj (hmeter.symm.trans hmeter')
  have hbounds : (0 ≤ meter.numerator ∧ meter.numerator ≤ 255) ∧ (meter.denominator = 4 ∨ meter.denominator = 8) := by
    rcases hform with hform | hform
    · rw [hform] at hnumerator ⊢
      exact ⟨⟨Int.ediv_nonneg hlength (by omega), hnumerator⟩, .inl rfl⟩
    · rw [hform] at hnumerator ⊢
      exact ⟨⟨hlength, hnumerator⟩, .inr rfl⟩
  obtain ⟨tempo, -, htempo⟩ := exists_setTempo hcheck
  obtain ⟨n, d, -, -, hsignature⟩ := exists_setTimeSignature hbounds.1 hbounds.2
  obtain ⟨events, hevents⟩ := exists_events hp (s.feel step grace)
  refine ⟨⟨[.trackName (trackNameOf name), .setTempo tempo, .timeSignature n d 24 8], events⟩, ?_⟩
  exact arrange_iff.2 ⟨_, _, step, grace, htempo _, hmeter, hsignature _, hstep, hgrace, hevents, rfl⟩

/-- a pattern whose numerator is too great for a byte is refused when its time signature is set -/
theorem arrange_of_lt_numerator {o : Options} {s : Settings} (hcheck : o.check = .ok s) (name : String) {meter : Meter}
    (hmeter : Meter.ofLength p.length s.noteDuration = .ok meter) (hnumerator : 255 < meter.numerator) :
    p.arrange name s = .error (.field (.attributeRange 0 255)) := by
  obtain ⟨tempo, -, htempo⟩ := exists_setTempo hcheck
  have hfield : attributeUpTo 255 (.int meter.numerator) = .error (.attributeRange 0 255) := by
    rw [attributeUpTo, toFin?, dif_neg (by omega)]
    rfl
  refine (bind_of_ok (htempo _)).trans ((bind_of_ok (mapError_eq_ok.2 hmeter)).trans ?_)
  exact bind_of_error (bind_of_error (mapError_of_error hfield))

theorem toMidi_of_arrange_error {name : String} {s : Settings} {e : ScoreError} (h : p.arrange name s = .error e) :
    p.toMidi name s = .error e :=
  bind_of_error h

end Pattern

end Drumline
