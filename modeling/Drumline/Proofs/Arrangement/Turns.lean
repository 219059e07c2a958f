/-
Strikes in turns. Without grace notes the events of an arrangement follow one another, so a drum is not struck again
before its note has ended, also on steps in a row: the note ends on the tick on which the next one starts, and stands
before it in the file. Two lines with the same note would strike it twice at once, which is why the notes have to
differ.

Main result: `strikes_in_turns`.
-/
import Drumline.Proofs.Arrangement.Grid
import Drumline.Proofs.Arrangement.Written
import Drumline.Proofs.Track.Turns

namespace Drumline

open Midi

/-! ## Model -/

/-- whether a line with a note sounds on a step -/
def Pattern.strikesOn (p : Pattern) (note : Int) (step : Nat) : Bool :=
  p.hits.any fun hit => hit.note == note && hit.plays ['x', 'X', 'f', 'F'] step

/-- whether a pattern has no flams -/
def Pattern.Plain (p : Pattern) : Prop := ∀ hit ∈ p.hits, 'f' ∉ hit.steps ∧ 'F' ∉ hit.steps

/-! ## Events -/

namespace Pattern

variable {p : Pattern} {feel : Feel} {step : Nat} {wait : Int} {events : List NoteEvent}

theorem flams_eq_nil (h : p.Plain) (step : Nat) : p.flams step = [] := by
  rw [flams, List.filter_eq_nil_iff]
  intro hit hhit hplays
  obtain ⟨hlower, hupper⟩ := h hit hhit
  obtain ⟨c, hc, hflam⟩ := (Option.any_eq_true _ _).1 hplays
  have hmem := List.mem_of_getElem? hc
  rw [List.contains_iff_mem, List.mem_cons, List.mem_singleton] at hflam
  rcases hflam with rfl | rfl
  · exact hlower hmem
  · exact hupper hmem

/-- without grace notes an arrangement has chords only -/
theorem tick_eq_none (h : p.events feel = .ok events) (hflams : feel.noFlams = true ∨ p.Plain) :
    ∀ e ∈ events, e.tick = none := by
  have hgraces := graces_of_eventsFrom h
  have hnone : (List.range p.length.toNat).flatMap (p.gracesAt feel) = [] := by
    rw [List.flatMap_eq_nil_iff]
    intro step _
    rcases hflams with hno | hplain
    · rw [gracesAt, if_pos hno]
    · rw [gracesAt, flams_eq_nil hplain]
      exact ite_self _
  rw [hnone, List.filter_eq_nil_iff] at hgraces
  intro e he
  simpa using hgraces e he

/-- chords have the notes that sound on the steps for pitches -/
theorem map_pitches (h : p.events feel = .ok events) (hticks : ∀ e ∈ events, e.tick = none) :
    events.map (·.pitches) = p.soundingSteps.map fun step => (p.sounding step).map fun hit => .int hit.note := by
  have hpitches := pitches_of_eventsFrom h
  rwa [List.filter_eq_self.2 fun e he => by rw [hticks e he]; rfl] at hpitches

/-- a note is among the pitches of as many chords as there are steps on which a line with it sounds -/
theorem countP_pitches (h : p.events feel = .ok events) (hticks : ∀ e ∈ events, e.tick = none) (note : Int) :
    (events.countP fun e => decide (.int note ∈ e.pitches)) =
      (List.range p.length.toNat).countP (p.strikesOn note) := by
  have hcount := congrArg (List.countP fun pitches => decide (.int note ∈ pitches)) (map_pitches h hticks)
  rw [List.countP_map, List.countP_map, soundingSteps, List.countP_filter] at hcount
  refine hcount.trans (List.countP_congr fun step _ => ?_)
  simp only [Function.comp_apply, Bool.and_eq_true, decide_eq_true_eq, List.mem_map, sounding, List.mem_filter,
    soundsOn, strikesOn, List.any_eq_true, Number.int.injEq, beq_iff_eq]
  constructor
  · rintro ⟨⟨hit, ⟨hhit, hplays⟩, hnote⟩, -⟩
    exact ⟨hit, hhit, hnote, hplays⟩
  · rintro ⟨hit, hhit, hnote, hplays⟩
    exact ⟨⟨hit, ⟨hhit, hplays⟩, hnote⟩, hit, hhit, hplays⟩

/-- without grace notes, and with different notes on the lines, the events of an arrangement follow one another -/
theorem follows_of_mem (hfeel : feel.Valid) (h : p.events feel = .ok events) (hticks : ∀ e ∈ events, e.tick = none)
    (hnotes : (p.hits.map (·.note)).Nodup) : ∀ e ∈ events, e.Follows := by
  intro e he
  have hsteady := steady_of_mem_eventsFrom hfeel le_rfl h he
  have hmem : e.pitches ∈ events.map (·.pitches) := List.mem_map_of_mem he
  rw [map_pitches h hticks] at hmem
  obtain ⟨step, -, hstep⟩ := List.mem_map.1 hmem
  refine ⟨hticks e he, hsteady.wait, hsteady.duration, ?_⟩
  have hsounding : ((p.sounding step).map (·.note)).Nodup := hnotes.sublist (List.filter_sublist.map _)
  have hpitches := hsounding.map fun _ _ => Number.int.inj
  rw [List.map_map] at hpitches
  rw [← hstep]
  exact hpitches

end Pattern

/-! ## Files -/

/-- **Strikes in turns.** Under settings that are accepted, take a pattern whose lines have different notes, and either
settings without grace notes or a pattern without flams. If it has a file, then in the track that is written the starts
and the ends of every note take turns, each start with its end right behind it among the messages of the note. There is
one of each for every step on which the line of the note sounds. Reading the file gives this track again, unless its
name is too long to be read. -/
theorem strikes_in_turns {p : Pattern} {name : String} {o : Options} {s : Settings} {bytes : List UInt8}
    (hcheck : o.check = .ok s) (hnotes : (p.hits.map (·.note)).Nodup) (hflams : s.noFlams = true ∨ p.Plain)
    (h : p.toMidi name s = .ok bytes) :
    ∃ timed : List (Timed Message), encodeFile [timed] = .ok bytes ∧
      (∀ note : DataByte, InTurns note ((timed.map (·.message)).filter (Message.concerns note)) ∧
        ((timed.map (·.message)).filter (Message.concerns note)).length =
          2 * (List.range p.length.toNat).countP (p.strikesOn (note : Int))) ∧
      decodeFile bytes = if (Text.encode (trackNameOf name).toList).length ≤ longestData
        then .ok ⟨0, 128, [timed.map Timed.inFile]⟩
        else .error (.tooLong (Text.encode (trackNameOf name).toList).length) := by
  obtain ⟨a, stamps, harrange, hplaced, -, hmessages, hencoded⟩ := Pattern.toMidi_eq_ok hcheck h
  obtain ⟨step, grace, -, -, -, -, hfeel, hevents⟩ := Pattern.feel_of_arrange hcheck harrange
  have hticks := Pattern.tick_eq_none hevents hflams
  have hfollows := Pattern.follows_of_mem hfeel hevents hticks hnotes
  refine ⟨_, hencoded, fun note => ?_, decodeFile_of_arrange hcheck harrange hmessages hencoded⟩
  rw [← Pattern.countP_pitches hevents hticks]
  exact inTurns_of_messages (metas_of_arrange hcheck harrange).1 hfollows hplaced hmessages note

/-! ## Two steps in a row -/

/-- a bass drum on two steps in a row, and a snare with the second -/
def march : Pattern := ⟨[⟨36, ['x', 'x']⟩, ⟨38, ['-', 'x']⟩], [], 2⟩

/-- the bass drum is struck twice, and its first note ends before the second starts -/
theorem strikes_in_turns_march : ∃ (bytes : List UInt8) (timed : List (Timed Message)),
    march.toMidi "march.pat" Settings.standard = .ok bytes ∧
    decodeFile bytes = .ok ⟨0, 128, [timed.map Timed.inFile]⟩ ∧
    InTurns 36 ((timed.map (·.message)).filter (Message.concerns 36)) ∧
    ((timed.map (·.message)).filter (Message.concerns 36)).length = 4 := by
  have htimeline : ((march.arrange "march.pat" Settings.standard).map (·.track) >>= Track.timeline) =
      .ok ([⟨0, .trackName "march"⟩, ⟨0, .setTempo 500000⟩, ⟨0, .timeSignature 2 eighths 24 8⟩,
        ⟨0, .noteOn 0 36 102⟩, ⟨64, .noteOff 0 36 102⟩, ⟨64, .noteOn 0 36 102⟩, ⟨64, .noteOn 0 38 102⟩,
        ⟨128, .noteOff 0 36 102⟩, ⟨128, .noteOff 0 38 102⟩].map Stamp.placed) := by
    decide +kernel
  have hname : (Text.encode (trackNameOf "march.pat").toList).length ≤ longestData := by decide +kernel
  have hplain : march.Plain := by
    intro hit hhit
    fin_cases hhit <;> decide
  obtain ⟨-, bytes, -, -, hbytes⟩ := Pattern.exists_toMidi_of_timeline htimeline (by decide) ⟨_, by cbv, by decide⟩
  obtain ⟨timed, -, hturns, hdecoded⟩ := strikes_in_turns check_standard (by decide) (.inr hplain) hbytes
  rw [if_pos hname] at hdecoded
  exact ⟨bytes, timed, hbytes, hdecoded, hturns 36⟩

end Drumline
