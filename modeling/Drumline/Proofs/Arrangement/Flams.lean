/-
What flams add. An arrangement without flams is the arrangement with them, less the events that have a tick of their
own: these are the grace notes, and they influence neither the waits nor the notes of the chords around them. The same
chords come of a pattern in which every flam is written as a hit.

`eventsFrom_noFlams_eq` and `plain_eventsFrom` are equations of whole runs, errors included; `arrange_eq_map` carries
them to arrangements. For messages, `exists_split` places chords and grace notes apart: its invariant is that a grace
note leaves the cursor where it is, so that the chords start where they start without it.

Main result: `flams_only_add`.
-/
import Drumline.Proofs.Arrangement.Grid
import Drumline.Proofs.Track.Merge

namespace Drumline

open Midi

/-! ## Model -/

/-- a flam as a hit, and anything else as it is -/
def plainSymbol (c : Char) : Char := if c = 'f' ∨ c = 'F' then 'x' else c

def Hit.plain (hit : Hit) : Hit := { hit with steps := hit.steps.map plainSymbol }

/-- a pattern with every flam written as a hit -/
def Pattern.plain (p : Pattern) : Pattern := { p with hits := p.hits.map Hit.plain }

def Strike.plain (strike : Strike) : Strike := { strike with flam := false }

/-- the events that follow one another -/
def chordsOf (events : List NoteEvent) : List NoteEvent := events.filter (·.tick.isNone)

/-- the events at ticks of their own -/
def gracesOf (events : List NoteEvent) : List NoteEvent := events.filter (·.tick.isSome)

/-- an arrangement with its chords only -/
def Arrangement.withoutGraces (a : Arrangement) : Arrangement :=
  { a with track := { a.track with events := chordsOf a.track.events } }

/-- whether an event starts and ends at whole ticks -/
structure NoteEvent.OnTicks (e : NoteEvent) : Prop where
  duration : ∃ ticks : Int, e.duration = .int ticks
  wait : ∃ ticks : Int, e.wait = .int ticks
  tick : ∀ tick, e.tick = some tick → ∃ ticks : Int, tick = .int ticks

theorem chordsOf_cons (e : NoteEvent) (events : List NoteEvent) :
    chordsOf (e :: events) = if e.tick.isNone then e :: chordsOf events else chordsOf events := List.filter_cons

theorem gracesOf_cons (e : NoteEvent) (events : List NoteEvent) :
    gracesOf (e :: events) = if e.tick.isSome then e :: gracesOf events else gracesOf events := List.filter_cons

theorem Arrangement.withoutGraces_withoutGraces (a : Arrangement) :
    a.withoutGraces.withoutGraces = a.withoutGraces := by
  unfold withoutGraces chordsOf
  rw [List.filter_filter, List.filter_congr]
  exact fun e _ => (Bool.and_self _).symm

/-! ## Strikes -/

/-- a flam that is written as a hit sounds, but is no flam -/
theorem Hit.plain_strike? (hit : Hit) (step : Nat) :
    hit.plain.strike? step = (hit.strike? step).map (Option.map Strike.plain) := by
  unfold strike? plain
  rw [List.getElem?_map]
  cases hit.steps[step]? with
  | none => rfl
  | some c =>
    rw [Option.map_some]
    unfold Symbol.ofChar plainSymbol
    by_cases hhit : c = 'x' ∨ c = 'X'
    · have hflam : ¬(c = 'f' ∨ c = 'F') := by rcases hhit with rfl | rfl <;> decide
      simp only [if_neg hflam, if_pos hhit]
      rfl
    · by_cases hflam : c = 'f' ∨ c = 'F'
      · simp only [if_pos hflam, if_neg hhit]
        rfl
      · simp only [if_neg hflam, if_neg hhit]
        rfl

namespace Pattern

theorem plain_strikes (p : Pattern) (step : Nat) :
    p.plain.strikes step = (p.strikes step).map (List.map Strike.plain) := by
  unfold strikes plain
  rw [List.mapM_map]
  simp only [Function.comp_def, Hit.plain_strike?]
  rw [mapM_map]
  cases p.hits.mapM fun hit => hit.strike? step with
  | error e => rfl
  | ok found =>
    refine congrArg Except.ok ?_
    show (found.map (Option.map Strike.plain)).filterMap id = (found.filterMap id).map Strike.plain
    rw [List.filterMap_map, List.map_filterMap]
    rfl

end Pattern

/-! ## One step -/

namespace Feel

variable (feel : Feel) (step : Nat) (accented : Bool) (wait : Int) (strikes : List Strike)

/-- hits make no grace notes, and the same chord as flams -/
theorem stepEvents_plain : feel.stepEvents step accented wait (strikes.map Strike.plain) =
    [feel.chord accented wait strikes] := by
  have hgraces : (strikes.map Strike.plain).filter (·.flam) = [] := by
    rw [List.filter_eq_nil_iff]
    intro strike hstrike
    obtain ⟨strike, -, rfl⟩ := List.mem_map.1 hstrike
    exact Bool.false_ne_true
  have hchord : feel.chord accented wait (strikes.map Strike.plain) = feel.chord accented wait strikes := by
    unfold chord
    rw [List.map_map]
    rfl
  rw [stepEvents, hgraces, hchord, List.map_nil, ite_self, List.nil_append]

end Feel

namespace Pattern

variable {p : Pattern} {feel : Feel} {wait : Int} {steps : List Nat}

/-! ## A run of steps -/

/-- **Flams as hits.** A run of a pattern whose flams are written as hits has the chords that it has with them. -/
theorem plain_eventsFrom (p : Pattern) (feel : Feel) (wait : Int) (steps : List Nat) :
    p.plain.eventsFrom feel wait steps = (p.eventsFrom feel wait steps).map chordsOf := by
  refine .trans ?_ (eventsFrom_noFlams_eq p feel wait steps)
  induction steps generalizing wait with
  | nil => rfl
  | cons step steps ih =>
    have hplain := plain_strikes p step
    cases hstrikes : p.strikes step with
    | error e =>
      rw [hstrikes] at hplain
      rw [eventsFrom_of_error hplain, eventsFrom_of_error hstrikes]
    | ok strikes =>
      rw [hstrikes] at hplain
      by_cases hsilent : strikes = []
      · subst hsilent
        rw [eventsFrom_of_silent hplain, eventsFrom_of_silent hstrikes, ih]
      · rw [eventsFrom_of_sounding hplain (mt List.map_eq_nil_iff.1 hsilent),
          eventsFrom_of_sounding hstrikes hsilent, ih, Feel.stepEvents_plain, Feel.stepEvents_noFlams]
        rfl

/-! ## Arrangements -/

/-- patterns of one length whose events differ by a function have arrangements that differ by it -/
theorem arrange_eq_map {p q : Pattern} (hlength : q.length = p.length) {s : Settings} {noFlams : Bool}
    {f : List NoteEvent → List NoteEvent} (hevents : ∀ step grace,
      q.events ({ s with noFlams }.feel step grace) = (p.events (s.feel step grace)).map f) (name : String) :
    q.arrange name { s with noFlams } =
      (p.arrange name s).map fun a => { a with track := { a.track with events := f a.track.events } } := by
  rw [arrange, arrange, map_bind, hlength]
  refine bind_congr_of_ok fun named hnamed => ?_
  rw [map_bind]
  refine bind_congr_of_ok fun meter _ => ?_
  rw [map_bind]
  refine bind_congr_of_ok fun signed hsigned => ?_
  rw [map_bind]
  refine bind_congr_of_ok fun step _ => ?_
  rw [map_bind]
  refine bind_congr_of_ok fun grace _ => ?_
  have hnone : signed.events = [] := by
    obtain ⟨_, rfl⟩ := setTempo_eq_ok hnamed
    obtain ⟨_, _, _, rfl⟩ := setTimeSignature_eq_ok hsigned
    rfl
  have hrun := hevents step grace
  unfold Settings.feel at hrun
  simp only [hrun]
  cases p.events ⟨step, grace, s.accentVelocity, s.normalVelocity, s.flamVelocity, s.noFlams⟩ with
  | error e => rfl
  | ok events =>
    refine congrArg Except.ok ?_
    rw [Track.addEvents, Track.addEvents, hnone]
    rfl

/-- **Flams off.** Without grace notes there is an arrangement if there is one with them: that one, less them. -/
theorem arrange_noFlams (p : Pattern) (name : String) (s : Settings) :
    p.arrange name { s with noFlams := true } = (p.arrange name s).map Arrangement.withoutGraces :=
  arrange_eq_map rfl (fun step grace => eventsFrom_noFlams_eq p (s.feel step grace) 0 _) name

/-- **Flams as hits.** A pattern whose flams are written as hits is arranged without grace notes. -/
theorem plain_arrange (p : Pattern) (name : String) (s : Settings) :
    p.plain.arrange name s = (p.arrange name s).map Arrangement.withoutGraces :=
  arrange_eq_map (p := p) (q := p.plain) rfl (fun step grace => plain_eventsFrom p (s.feel step grace) 0 _) name

theorem onTicks_of_mem_eventsFrom {events : List NoteEvent} (h : p.eventsFrom feel wait steps = .ok events) :
    ∀ e ∈ events, e.OnTicks := by
  induction steps generalizing wait events with
  | nil =>
    cases h
    exact fun e he => (List.not_mem_nil he).elim
  | cons step steps ih =>
    obtain ⟨strikes, -, ⟨-, h⟩ | ⟨-, others, hothers, rfl⟩⟩ := eventsFrom_cons_eq_ok.1 h
    · exact ih h
    · intro e he
      rcases List.mem_append.1 he with he | he
      · rcases Feel.mem_stepEvents he with ⟨strike, -, rfl⟩ | rfl
        · exact ⟨⟨_, rfl⟩, ⟨0, rfl⟩, fun tick htick => ⟨_, (Option.some.inj htick).symm⟩⟩
        · exact ⟨⟨_, rfl⟩, ⟨wait, rfl⟩, fun tick htick => by cases htick⟩
      · exact ih hothers e he

end Pattern

/-! ## Placing chords and grace notes -/

namespace NoteEvent

variable {e : NoteEvent} {cursor : Int} {placed : List Placed} {next : Number}

/-- what is placed of an event on whole ticks stands on whole ticks, and so does the cursor behind it -/
theorem OnTicks.place_eq_ok (h : e.OnTicks) (hplace : e.place (.int cursor) = .ok (placed, next)) :
    ∃ (stamps : List Stamp) (stop : Int), placed = stamps.map Stamp.placed ∧ next = .int stop := by
  obtain ⟨duration, hduration⟩ := h.duration
  obtain ⟨wait, hwait⟩ := h.wait
  obtain ⟨start, stop, velocity, values, hstart, hstop, -, rfl, rfl⟩ := NoteEvent.place_eq_ok hplace
  have hwhole : ∃ first : Int, start = .int first := by
    cases htick : e.tick with
    | none =>
      rw [NoteEvent.start, htick, hwait] at hstart
      exact ⟨cursor + wait, (Except.ok.inj hstart).symm⟩
    | some tick =>
      rw [NoteEvent.start, htick] at hstart
      obtain ⟨first, rfl⟩ := h.tick tick htick
      exact ⟨first, (Except.ok.inj hstart).symm⟩
  obtain ⟨first, rfl⟩ := hwhole
  rw [hduration, Number.add_int] at hstop
  obtain rfl := Except.ok.inj hstop
  refine ⟨values.map (fun v => ⟨first, .noteOn v.1 v.2.1 v.2.2⟩) ++
    values.map (fun v => ⟨first + duration, .noteOff v.1 v.2.1 v.2.2⟩),
    if e.tick.isNone then first + duration else cursor, ?_, ?_⟩
  · rw [List.map_append, List.map_map, List.map_map]
    rfl
  · split <;> rfl

/-- an event at a tick of its own is placed alike wherever the cursor is, which stays there -/
theorem place_of_tick (htick : e.tick.isSome) (cursor : Number) :
    e.place cursor = (e.place 0).map fun result => (result.1, cursor) := by
  obtain ⟨tick, htick⟩ := Option.isSome_iff_exists.1 htick
  unfold place NoteEvent.start
  rw [htick, map_bind]
  refine bind_congr_of_ok fun start _ => ?_
  rw [map_bind]
  refine bind_congr_of_ok fun stop _ => ?_
  rw [map_bind]
  refine bind_congr_of_ok fun velocity _ => ?_
  rw [map_bind]
  refine bind_congr_of_ok fun starts _ => ?_
  rw [map_bind]
  exact bind_congr_of_ok fun ends _ => rfl

end NoteEvent

/-- **Chords and grace notes apart.** What is placed of events on whole ticks is what is placed of the chords alone and,
between these, what is placed of the grace notes alone. -/
theorem exists_split {events : List NoteEvent} (h : ∀ e ∈ events, e.OnTicks) {cursor : Int} {placed : List Placed}
    (hplaced : placeEvents (.int cursor) events = .ok placed) :
    ∃ all chords graces : List Stamp, placed = all.map Stamp.placed ∧
      placeEvents (.int cursor) (chordsOf events) = .ok (chords.map Stamp.placed) ∧
      (∀ elsewhere, placeEvents elsewhere (gracesOf events) = .ok (graces.map Stamp.placed)) ∧
      chords.Sublist all ∧ all.Perm (chords ++ graces) := by
  induction events generalizing cursor placed with
  | nil =>
    cases hplaced
    exact ⟨[], [], [], rfl, rfl, fun _ => rfl, .slnil, .refl _⟩
  | cons e events ih =>
    obtain ⟨⟨first, next⟩, hfirst, hplaced⟩ := bind_eq_ok.1 hplaced
    obtain ⟨others, hothers, hplaced⟩ := bind_eq_ok.1 hplaced
    cases hplaced
    obtain ⟨front, stop, rfl, rfl⟩ := (h e List.mem_cons_self).place_eq_ok hfirst
    obtain ⟨all, chords, graces, rfl, hchords, hgraces, hsub, hperm⟩ :=
      ih (fun e he => h e (List.mem_cons_of_mem _ he)) hothers
    cases htick : e.tick with
    | none =>
      refine ⟨front ++ all, front ++ chords, graces, (List.map_append ..).symm, ?_, ?_, hsub.append_left front, ?_⟩
      · rw [chordsOf_cons, htick, Option.isNone_none, if_pos rfl, List.map_append]
        exact bind_eq_ok.2 ⟨_, hfirst, bind_eq_ok.2 ⟨_, hchords, rfl⟩⟩
      · rw [gracesOf_cons, htick, Option.isSome_none, if_neg Bool.false_ne_true]
        exact hgraces
      · rw [List.append_assoc]
        exact hperm.append_left front
    | some tick =>
      have hsome : e.tick.isSome := by rw [htick]; rfl
      -- the chords behind the grace note start where they start without it
      have hanywhere (elsewhere : Number) : e.place elsewhere = .ok (front.map Stamp.placed, elsewhere) := by
        rw [e.place_of_tick hsome] at hfirst ⊢
        obtain ⟨result, hresult, hpair⟩ := map_eq_ok.1 hfirst
        rw [hresult, ← (Prod.mk.inj hpair).1]
        rfl
      obtain rfl : stop = cursor := by
        have hpair := Except.ok.inj (hfirst.symm.trans (hanywhere (.int cursor)))
        exact Number.int.inj (Prod.mk.inj hpair).2
      refine ⟨front ++ all, chords, front ++ graces, (List.map_append ..).symm, ?_, fun elsewhere => ?_,
        List.sublist_append_of_sublist_right hsub, ?_⟩
      · rw [chordsOf_cons, htick, Option.isNone_some, if_neg Bool.false_ne_true]
        exact hchords
      · rw [gracesOf_cons, if_pos hsome, List.map_append]
        exact bind_eq_ok.2 ⟨_, hanywhere elsewhere, bind_eq_ok.2 ⟨_, hgraces elsewhere, rfl⟩⟩
      · exact (hperm.append_left front).trans (List.perm_append_comm_assoc _ _ _)

/-- **Messages.** The messages of a track on whole ticks are those of its chords, in the same order at the same ticks,
and between them those of its grace notes. -/
theorem messages_split {t : Track} (h : ∀ e ∈ t.events, e.OnTicks) {timed : List (Timed Message)}
    (htimed : t.messages = .ok timed) :
    ∃ (body rest : List (Timed Message)) (stamps others graces : List Stamp),
      timed = body ++ [⟨0, .endOfTrack⟩] ∧ absolute? 0 body = some stamps ∧
      Track.messages { t with events := chordsOf t.events } = .ok (rest ++ [⟨0, .endOfTrack⟩]) ∧
      absolute? 0 rest = some others ∧ placeEvents 0 (gracesOf t.events) = .ok (graces.map Stamp.placed) ∧
      others.Sublist stamps ∧ stamps.Perm (others ++ graces) := by
  obtain ⟨_, htimeline, -⟩ := bind_eq_ok.1 htimed
  obtain ⟨placed, hplaced, -⟩ := bind_eq_ok.1 htimeline
  have hfirst : placeEvents (.int 0) t.events = .ok placed := hplaced
  obtain ⟨all, chords, graces, rfl, hchords, hgraces, hsub, hperm⟩ := exists_split h hfirst
  obtain rfl := Except.ok.inj ((messages_of_timeline (timeline_of_placeEvents hplaced)).symm.trans htimed)
  have hrest := messages_of_timeline (timeline_of_placeEvents (t := { t with events := chordsOf t.events }) hchords)
  refine ⟨_, _, _, _, graces, rfl, absolute?_deltas _ _, hrest, absolute?_deltas _ _, hgraces 0, ?_, ?_⟩
  · exact mergeSort_sublist Stamp.le_trans Stamp.le_total (hsub.append_left _)
  · have hsorted := List.mergeSort_perm (t.metas.map (Stamp.mk 0) ++ chords) Stamp.le
    refine (List.mergeSort_perm _ _).trans (.trans ?_ (hsorted.symm.append_right _))
    rw [List.append_assoc]
    exact hperm.append_left _

/-! ## With flams and without -/

/-- **Flams only add grace notes.** With the same settings otherwise, a pattern is arranged without flams if it is with
them, or else fails alike. Meter, meta messages and chords are the same, and nothing else is left. Nor is anything else
left if every flam is written as a hit, be flams on or off. If there are messages with flams, there are messages without
them: the same in the same order at the same ticks, and what is missing is what is placed of the grace notes. -/
theorem flams_only_add (p : Pattern) (name : String) (s : Settings) :
    p.arrange name { s with noFlams := true } =
      (p.arrange name { s with noFlams := false }).map Arrangement.withoutGraces ∧
    p.plain.arrange name { s with noFlams := true } = p.arrange name { s with noFlams := true } ∧
    p.plain.arrange name { s with noFlams := false } =
      (p.arrange name { s with noFlams := false }).map Arrangement.withoutGraces ∧
    ∀ (a : Arrangement) (timed : List (Timed Message)), p.arrange name { s with noFlams := false } = .ok a →
      a.track.messages = .ok timed →
      ∃ (body rest : List (Timed Message)) (stamps others graces : List Stamp),
        timed = body ++ [⟨0, .endOfTrack⟩] ∧ absolute? 0 body = some stamps ∧
        a.withoutGraces.track.messages = .ok (rest ++ [⟨0, .endOfTrack⟩]) ∧ absolute? 0 rest = some others ∧
        placeEvents 0 (gracesOf a.track.events) = .ok (graces.map Stamp.placed) ∧
        others.Sublist stamps ∧ stamps.Perm (others ++ graces) := by
  have hoff := Pattern.arrange_noFlams p name { s with noFlams := false }
  refine ⟨hoff, ?_, Pattern.plain_arrange p name _, fun a timed harrange htimed => ?_⟩
  · have hplain := Pattern.plain_arrange p name { s with noFlams := true }
    rw [hplain, hoff]
    cases p.arrange name { s with noFlams := false } with
    | error e => rfl
    | ok a => exact congrArg Except.ok (a.withoutGraces_withoutGraces)
  · obtain ⟨-, -, step, grace, -, -, -, -, -, hevents, -⟩ := Pattern.arrange_iff.1 harrange
    exact messages_split (Pattern.onTicks_of_mem_eventsFrom hevents) htimed

/-- the groove has a grace note before its second step, and without it the chords stay where they are -/
theorem flams_only_add_groove : ∃ (a : Arrangement) (timed rest : List (Timed Message)) (stamps others : List Stamp),
    groove.arrange "groove.pat" Settings.standard = .ok a ∧ a.track.messages = .ok timed ∧
      groove.plain.arrange "groove.pat" Settings.standard = .ok a.withoutGraces ∧
      a.withoutGraces.track.messages = .ok (rest ++ [⟨0, .endOfTrack⟩]) ∧ absolute? 0 rest = some others ∧
      others.Sublist stamps ∧ stamps.Perm (others ++ [⟨56, .noteOn 0 38 76⟩, ⟨63, .noteOff 0 38 76⟩]) := by
  have hplaced : ((groove.arrange "groove.pat" Settings.standard).map (·.track.events) >>= placeEvents 0) =
      .ok ([⟨0, .noteOn 0 36 102⟩, ⟨64, .noteOff 0 36 102⟩, ⟨56, .noteOn 0 38 76⟩, ⟨63, .noteOff 0 38 76⟩,
        ⟨64, .noteOn 0 38 102⟩, ⟨128, .noteOff 0 38 102⟩, ⟨192, .noteOn 0 36 127⟩, ⟨192, .noteOn 0 38 127⟩,
        ⟨256, .noteOff 0 36 127⟩, ⟨256, .noteOff 0 38 127⟩].map Stamp.placed) := by
    decide +kernel
  have hgrace : ((groove.arrange "groove.pat" Settings.standard).map (·.track.events) >>= fun events =>
      placeEvents 0 (gracesOf events)) = .ok ([⟨56, .noteOn 0 38 76⟩, ⟨63, .noteOff 0 38 76⟩].map Stamp.placed) := by
    decide +kernel
  obtain ⟨events, hevents, hplaced⟩ := bind_eq_ok.1 hplaced
  obtain ⟨a, harrange, rfl⟩ := map_eq_ok.1 hevents
  rw [harrange] at hgrace
  obtain ⟨-, -, hplain, hmessages⟩ := flams_only_add groove "groove.pat" Settings.standard
  obtain ⟨-, rest, stamps, others, graces, -, -, hrest, hothers, hgraces, hsub, hperm⟩ :=
    hmessages a _ harrange (messages_of_timeline (timeline_of_placeEvents hplaced))
  obtain rfl := List.map_injective_iff.2 Stamp.placed_injective (Except.ok.inj (hgraces.symm.trans hgrace))
  exact ⟨a, _, rest, stamps, others, harrange, messages_of_timeline (timeline_of_placeEvents hplaced),
    hplain.trans (congrArg (Except.map Arrangement.withoutGraces) harrange), hrest, hothers, hsub, hperm⟩

end Drumline
