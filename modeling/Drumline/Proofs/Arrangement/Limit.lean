/-
How far apart the messages of a pattern's file are. A file holds deltas of at most four bytes. Nothing checks that: a
pattern that is read may be of any length, silent steps add up, and the writer takes as many bytes as a delta needs.
What keeps deltas short is the time signature, whose numerator has to be a byte. So no pattern with a file is longer
than 1016 steps, and none of an odd length longer than 255.

All that is placed of events on a grid lies within the pattern (`OnGrid.tick_le`), so no delta is longer than the
pattern (`length_mul_le`).

Main result: `deltas_fit_four_bytes`.
-/
import Drumline.Proofs.Arrangement.Grace
import Drumline.Proofs.Arrangement.Written
import Drumline.Proofs.Midi.Size
import Drumline.Proofs.Pattern.RoundTrip

namespace Drumline

open Midi

/-! ## Model -/

/-- whether an event ends by some tick, if it has a tick of its own, and lasts a step otherwise -/
structure NoteEvent.EndsBy (e : NoteEvent) (ticks bound : Int) : Prop where
  chord : e.tick = none → e.duration = .int ticks
  placed : ∀ tick, e.tick = some tick → ∃ start duration : Int, tick = .int start ∧ e.duration = .int duration ∧
    start ≤ bound ∧ start + duration ≤ bound

/-! ## Ticks -/

/-- what is placed of an event is at its start or at its end -/
theorem NoteEvent.tick_of_place {e : NoteEvent} {cursor next : Number} {start stop : Int} {stamps : List Stamp}
    (hstart : e.start cursor = .ok (.int start)) (hstop : (Number.int start).add e.duration = .ok (.int stop))
    (h : e.place cursor = .ok (stamps.map Stamp.placed, next)) :
    next = (if e.tick.isNone then .int stop else cursor) ∧ ∀ s ∈ stamps, s.tick = start ∨ s.tick = stop := by
  obtain ⟨start', stop', -, values, hstart', hstop', -, hnext, hplaced⟩ := NoteEvent.place_eq_ok h
  obtain rfl := Except.ok.inj (hstart.symm.trans hstart')
  obtain rfl := Except.ok.inj (hstop.symm.trans hstop')
  refine ⟨hnext, fun s hs => ?_⟩
  have hmem : s.placed ∈ stamps.map Stamp.placed := List.mem_map_of_mem hs
  rw [hplaced] at hmem
  rcases List.mem_append.1 hmem with hmem | hmem
  · obtain ⟨v, -, hv⟩ := List.mem_map.1 hmem
    exact .inl (Number.int.inj (congrArg Placed.tick hv)).symm
  · obtain ⟨v, -, hv⟩ := List.mem_map.1 hmem
    exact .inr (Number.int.inj (congrArg Placed.tick hv)).symm

/-- **Within the grid.** What is placed of events on a grid lies before its end, if the events do that have ticks. -/
theorem OnGrid.tick_le {ticks bound : Int} {cursor : Number} {steps : List Nat} {events : List NoteEvent}
    (h : OnGrid ticks cursor steps events) (hticks : 0 ≤ ticks)
    (hsteps : ∀ step ∈ steps, (step + 1 : Nat) * ticks ≤ bound) (hevents : ∀ e ∈ events, e.EndsBy ticks bound)
    {stamps : List Stamp} (hplaced : placeEvents cursor events = .ok (stamps.map Stamp.placed)) :
    ∀ s ∈ stamps, s.tick ≤ bound := by
  induction h generalizing stamps with
  | nil =>
    obtain rfl : stamps = [] := List.map_eq_nil_iff.1 (Except.ok.inj hplaced).symm
    exact fun s hs => (List.not_mem_nil hs).elim
  | @placed cursor steps e events htick _ ih =>
    obtain ⟨next, front, back, rfl, hfirst, hothers⟩ := placeEvents_cons_eq_ok hplaced
    obtain ⟨tick, htick⟩ := Option.isSome_iff_exists.1 htick
    obtain ⟨start, duration, rfl, hduration, hstart, hstop⟩ := (hevents e List.mem_cons_self).placed tick htick
    have hbegin : e.start cursor = .ok (.int start) := by rw [NoteEvent.start, htick]
    have hend : (Number.int start).add e.duration = .ok (.int (start + duration)) := by rw [hduration, Number.add_int]
    obtain ⟨hnext, hfront⟩ := NoteEvent.tick_of_place hbegin hend hfirst
    rw [htick] at hnext
    obtain rfl : next = cursor := hnext
    intro s hs
    rcases List.mem_append.1 hs with hs | hs
    · rcases hfront s hs with h | h <;> omega
    · exact ih hsteps (fun e he => hevents e (List.mem_cons_of_mem _ he)) hothers s hs
  | @chord cursor stop step steps e events htick hstart hstop _ ih =>
    obtain ⟨next, front, back, rfl, hfirst, hothers⟩ := placeEvents_cons_eq_ok hplaced
    have hend : (Number.int (step * ticks)).add e.duration = .ok (.int (step * ticks + ticks)) := by
      rw [(hevents e List.mem_cons_self).chord htick, Number.add_int]
    obtain ⟨hnext, hfront⟩ := NoteEvent.tick_of_place hstart hend hfirst
    rw [htick] at hnext
    obtain rfl := Except.ok.inj (hend.symm.trans hstop)
    obtain rfl : next = .int (step * ticks + ticks) := hnext
    have hlast := hsteps step List.mem_cons_self
    have hsucc := succ_mul_ticks step ticks
    intro s hs
    rcases List.mem_append.1 hs with hs | hs
    · rcases hfront s hs with h | h <;> omega
    · exact ih (fun step hstep => hsteps step (List.mem_cons_of_mem _ hstep))
        (fun e he => hevents e (List.mem_cons_of_mem _ he)) hothers s hs

/-! ## Patterns -/

namespace Pattern

variable {p : Pattern} {feel : Feel} {events : List NoteEvent}

/-- the events of a pattern end within it -/
theorem endsBy_of_mem (hfeel : feel.Valid) (hroom : feel.Roomy) (h : p.events feel = .ok events) :
    ∀ e ∈ events, e.EndsBy feel.stepTicks (p.length.toNat * feel.stepTicks) := by
  intro e he
  obtain ⟨step, hstep, strikes, accented, wait, -, -, he⟩ := mem_eventsFrom hfeel le_rfl h he
  have hlast := Feel.mul_stepTicks_le hroom (show step + 1 ≤ p.length.toNat from List.mem_range.1 hstep)
  rcases Feel.mem_stepEvents he with ⟨strike, -, rfl⟩ | rfl
  · refine ⟨fun htick => (nomatch htick), fun tick htick => ?_⟩
    have hlt := Feel.graceEnd_lt hroom step
    have hbefore := Feel.graceTick_lt_graceEnd hroom step
    refine ⟨feel.graceTick step, feel.flamTicks - 1, (Option.some.inj htick).symm, rfl, by omega, ?_⟩
    show feel.graceEnd step ≤ _
    omega
  · exact ⟨fun _ => rfl, fun tick htick => (nomatch htick)⟩

/-- what is placed of a pattern's events lies within the pattern -/
theorem tick_le_of_events (hfeel : feel.Valid) (hroom : feel.Roomy) (h : p.events feel = .ok events)
    {stamps : List Stamp} (hplaced : placeEvents 0 events = .ok (stamps.map Stamp.placed)) :
    ∀ s ∈ stamps, s.tick ≤ p.length.toNat * feel.stepTicks := by
  have hpos := hfeel.step
  obtain ⟨-, -, -, -, hgrid⟩ := exists_waits_of_events h
  refine hgrid.tick_le (by omega) (fun step hstep => ?_) (endsBy_of_mem hfeel hroom h) hplaced
  exact Feel.mul_stepTicks_le hroom (List.mem_range.1 (List.mem_of_mem_filter hstep))

end Pattern

/-- **The longest pattern.** The numerator of its time signature keeps a pattern that is arranged within a number of
ticks. -/
theorem length_mul_le {p : Pattern} {name : String} {o : Options} {s : Settings} {a : Arrangement}
    (hcheck : o.check = .ok s) (h : p.arrange name s = .ok a) {step : Int}
    (hstep : tickDuration a.meter.code = .ok step) :
    0 ≤ p.length ∧ p.length * step ≤ 520192 := by
  obtain ⟨named, signed, -, -, -, hmeter, hsigned, -⟩ := Pattern.arrange_iff.1 h
  obtain ⟨numerator, hnumerator, -⟩ := bind_eq_ok.1 hsigned
  have hbounds := bounds_of_attributeUpTo (mapError_eq_ok.1 hnumerator)
  obtain ⟨code, -, -, -, -, -, meter, ticks, hmeter', hticks, -, hform⟩ := exists_meter hcheck p.length
  obtain rfl := Except.ok.inj (hmeter'.symm.trans hmeter)
  obtain rfl := Except.ok.inj (hticks.symm.trans hstep)
  have hquarters := Nat.div_le_self 512 code
  have heighths := Nat.div_le_self 1024 code
  -- in quarters the pattern may have four steps for each of the numerator, in eighths steps may be twice as long
  rcases hform with ⟨hlength, hform, rfl⟩ | ⟨hform, rfl⟩
  · rw [hform] at hbounds
    have hbounds : 0 ≤ p.length / 4 ∧ p.length / 4 ≤ 255 := hbounds
    have hproduct := Int.mul_le_mul (show p.length ≤ 1016 by omega) (Int.ofNat_le.2 hquarters)
      (Int.natCast_nonneg _) (by omega)
    exact ⟨by omega, hproduct⟩
  · rw [hform] at hbounds
    have hbounds : 0 ≤ p.length ∧ p.length ≤ 255 := hbounds
    have hproduct := Int.mul_le_mul hbounds.2 (Int.ofNat_le.2 heighths) (Int.natCast_nonneg _) (by omega)
    exact ⟨hbounds.1, hproduct.trans (by norm_num)⟩

/-- the deltas of a framed track are no longer than what is placed in it lies behind the start -/
theorem delta_of_mem_framed {metas : List Message} {stamps : List Stamp} {bound : Int} (hbound : 0 ≤ bound)
    (hticks : ∀ s ∈ stamps, 0 ≤ s.tick ∧ s.tick ≤ bound) {m : Timed Message}
    (hm : m ∈ framed metas (deltas 0 (stamps.mergeSort Stamp.le))) :
    ∃ ticks : Nat, m.delta = .int ticks ∧ (ticks : Int) ≤ bound := by
  have hsorted : ∀ s ∈ stamps.mergeSort Stamp.le, 0 ≤ s.tick ∧ s.tick ≤ bound := fun s hs =>
    hticks s (List.mem_mergeSort.1 hs)
  rcases List.mem_append.1 hm with hm | hm
  · rcases List.mem_append.1 hm with hm | hm
    · obtain ⟨message, -, rfl⟩ := List.mem_map.1 hm
      exact ⟨0, rfl, hbound⟩
    · have hpairwise := List.pairwise_mergeSort Stamp.le_trans Stamp.le_total stamps
      obtain ⟨ticks, hdelta⟩ := delta_of_mem_deltas hpairwise (fun s hs => (hsorted s hs).1) hm
      have hlt := delta_lt_of_mem_deltas le_rfl
        (fun s hs => ⟨(hsorted s hs).1, Int.lt_add_one_of_le (hsorted s hs).2⟩) hm hdelta
      exact ⟨ticks, hdelta, Int.le_of_lt_add_one hlt⟩
  · rw [List.mem_singleton.1 hm]
    exact ⟨0, rfl, hbound⟩

/-! ## What sets no limit -/

def rests (n : Nat) : Pattern := ⟨[⟨36, List.replicate (n + 1) '-'⟩], [], (n + 1 : Nat)⟩

/-- patterns that are read are of any length -/
theorem exists_parse_rests (n : Nat) : ∃ content, (Pattern.parse content).result = .ok (rests n) := by
  have hnote : (36 : Int).natAbs < 10 ^ maxDigits := by decide +kernel
  have hwell : (rests n).WellFormed := by
    refine .inr ⟨Int.ofNat_le.2 (Nat.succ_pos n), .inl (List.cons_ne_nil _ _), fun hit hhit => ?_, .inl rfl⟩
    rw [List.mem_singleton.1 hhit]
    refine ⟨congrArg Nat.cast (List.length_replicate ..), fun c hc => ?_, hnote⟩
    rw [List.eq_of_mem_replicate hc]
    rfl
  obtain ⟨content, -, hparse⟩ := parse_format hwell
  exact ⟨content, by rw [hparse]⟩

/-- deltas that are written take any number of bytes -/
theorem exists_long_delta (count : Nat) : ∃ (ticks : Nat) (rest : List UInt8),
    encodeMessages none [⟨.int ticks, .endOfTrack⟩] = .ok (VariableLength.write ticks ++ rest) ∧
      count < (VariableLength.write ticks).length := by
  have hencoded : encodeMessages none [⟨.int (128 ^ count : Nat), .endOfTrack⟩] =
      .ok (VariableLength.write (128 ^ count) ++ (Message.endOfTrack.encode none).1 ++ []) :=
    encodeMessages_cons.2 ⟨128 ^ count, [], rfl, rfl, rfl⟩
  rw [List.append_assoc] at hencoded
  exact ⟨128 ^ count, _, hencoded, VariableLength.lt_length_write le_rfl⟩

/-! ## Files -/

/-- **Deltas fit into four bytes.** In the track that is written of a pattern, under settings that are accepted, every
delta is a natural number of ticks, at most as many as the pattern has, and these are at most 520192: three bytes would
do. Neither reading nor writing sees to that. Patterns that are read are of any length, and a delta that is written
takes as many bytes as it needs. -/
theorem deltas_fit_four_bytes :
    (∀ (p : Pattern) (name : String) (o : Options) (s : Settings) (bytes : List UInt8),
      o.check = .ok s → p.toMidi name s = .ok bytes →
        ∃ (a : Arrangement) (step : Int) (timed : List (Timed Message)), p.arrange name s = .ok a ∧
          tickDuration a.meter.code = .ok step ∧ a.track.messages = .ok timed ∧ encodeFile [timed] = .ok bytes ∧
          p.length * step ≤ 520192 ∧
          ∀ m ∈ timed, ∃ ticks : Nat, m.delta = .int ticks ∧ (ticks : Int) ≤ p.length * step ∧ ticks ≤ 0x0FFFFFFF ∧
            (VariableLength.write ticks).length ≤ 4) ∧
    (∀ n : Nat, ∃ content p, (Pattern.parse content).result = .ok p ∧ (n : Int) ≤ p.length) ∧
    ∀ count : Nat, ∃ (ticks : Nat) (rest : List UInt8),
      encodeMessages none [⟨.int ticks, .endOfTrack⟩] = .ok (VariableLength.write ticks ++ rest) ∧
        count < (VariableLength.write ticks).length := by
  refine ⟨?_, fun n => ?_, exists_long_delta⟩
  · intro p name o s bytes hcheck h
    obtain ⟨a, stamps, harrange, hplaced, hticks, hmessages, hencoded⟩ := Pattern.toMidi_eq_ok hcheck h
    obtain ⟨step, grace, hmeter, -, hstep, hgrace, hfeel, hevents⟩ := Pattern.feel_of_arrange hcheck harrange
    have hroom := room_of_check hcheck hmeter hstep hgrace
    have hbounds := Pattern.tick_le_of_events hfeel hroom hevents hplaced
    obtain ⟨hlength, hshort⟩ := length_mul_le hcheck harrange hstep
    rw [Int.toNat_of_nonneg hlength] at hbounds
    have hpos : 0 ≤ p.length * step := Int.mul_nonneg hlength (Int.le_of_lt hfeel.step)
    refine ⟨a, step, _, harrange, hstep, hmessages, hencoded, hshort, fun m hm => ?_⟩
    obtain ⟨ticks, hdelta, hle⟩ := delta_of_mem_framed hpos (fun s hs => ⟨hticks s hs, hbounds s hs⟩) hm
    have hlt : ticks < 128 ^ (3 + 1) := by omega
    exact ⟨ticks, hdelta, hle, by omega, VariableLength.length_write_le hlt⟩
  · obtain ⟨content, hparse⟩ := exists_parse_rests n
    exact ⟨content, rests n, hparse, Int.ofNat_le.2 (Nat.le_succ n)⟩

/-! ## A late hit -/

def late : Pattern := ⟨[⟨36, ['-', '-', '-', '-', '-', '-', '-', '-', 'x']⟩], [], 9⟩

/-- the longest steps that options accept -/
def wholes : Settings := { Settings.standard with noteDuration := .int 1 }

/-- the delta before the hit is as long as the rests, and no delta is longer than the pattern -/
theorem deltas_fit_four_bytes_late : ∃ (a : Arrangement) (bytes : List UInt8) (timed : List (Timed Message)),
    Options.check { noteDuration := .int 1 } = .ok wholes ∧ late.arrange "late.pat" wholes = .ok a ∧
    a.track.messages = .ok timed ∧ late.toMidi "late.pat" wholes = .ok bytes ∧
    ⟨.int 8192, .noteOn 0 36 102⟩ ∈ timed ∧ ∀ m ∈ timed, ∃ ticks : Nat, m.delta = .int ticks ∧ ticks ≤ 9216 := by
  have hcheck : Options.check { noteDuration := .int 1 } = .ok wholes := by decide +kernel
  have hstep' : tickDuration (.double (.finite (1 / 2))) = .ok 1024 := by decide +kernel
  have hmeter' : (late.arrange "late.pat" wholes).map (·.meter) = .ok ⟨9, 8, .double (.finite (1 / 2))⟩ := by
    decide +kernel
  have htimeline : ((late.arrange "late.pat" wholes).map (·.track) >>= Track.timeline) =
      .ok ([⟨0, .trackName "late"⟩, ⟨0, .setTempo 500000⟩, ⟨0, .timeSignature 9 eighths 24 8⟩,
        ⟨8192, .noteOn 0 36 102⟩, ⟨9216, .noteOff 0 36 102⟩].map Stamp.placed) := by
    decide +kernel
  obtain ⟨a, bytes, harrange, hmessages, hbytes⟩ :=
    Pattern.exists_toMidi_of_timeline htimeline (by decide) ⟨_, by cbv, by decide⟩
  obtain ⟨a', step, timed, harrange', hstep, hmessages', -, -, hdeltas⟩ :=
    deltas_fit_four_bytes.1 late "late.pat" _ wholes bytes hcheck hbytes
  obtain rfl := Except.ok.inj (harrange.symm.trans harrange')
  obtain rfl := Except.ok.inj (hmessages.symm.trans hmessages')
  obtain ⟨a'', harrange'', hmeter⟩ := map_eq_ok.1 hmeter'
  obtain rfl := Except.ok.inj (harrange.symm.trans harrange'')
  rw [hmeter] at hstep
  obtain rfl := Except.ok.inj (hstep'.symm.trans hstep)
  refine ⟨a, bytes, _, hcheck, harrange, hmessages, hbytes, by simp [deltas], fun m hm => ?_⟩
  obtain ⟨ticks, hdelta, hle, -⟩ := hdeltas m hm
  exact ⟨ticks, hdelta, Int.ofNat_le.1 hle⟩

end Drumline
