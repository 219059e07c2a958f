/-
Events that only their pitches can keep from making messages (`NoteEvent.Steady`): they lie on whole ticks from the
start on, last at least one, are on the first channel, and their velocity makes a data byte. It need not be a whole
number on the scale of the settings, so these are more than the events of `WholeEvent.toEvent`.

A track of steady events has messages, and time runs forward in them, if every pitch is a data byte
(`forward_of_steady`). If one is not, there are no messages, and the error is always that one
(`messages_of_not_inRange`).
-/
import Drumline.Proofs.Track.Balance
import Drumline.Proofs.Track.RoundTrip

namespace Drumline

open Midi

/-! ## Model -/

/-- whether a velocity makes a data byte -/
def Velocity.Fits (velocity : Number) : Prop :=
  ∃ data : Int, toData velocity = .ok data ∧ 0 ≤ data ∧ data ≤ 127

namespace NoteEvent

/-- whether an event makes messages from the start on, as far as its pitches let it -/
structure Steady (e : NoteEvent) : Prop where
  duration : ∃ ticks : Nat, 1 ≤ ticks ∧ e.duration = .int ticks
  wait : ∃ ticks : Nat, e.wait = .int ticks
  tick : ∀ tick, e.tick = some tick → ∃ ticks : Nat, tick = .int ticks
  pitches : ∀ pitch ∈ e.pitches, ∃ note : Int, pitch = .int note
  channel : e.channel = .int 0
  velocity : Velocity.Fits e.velocity

/-- whether the whole pitches of an event are data bytes -/
def InRange (e : NoteEvent) : Prop :=
  ∀ note : Int, .int note ∈ e.pitches → 0 ≤ note ∧ note ≤ 127

end NoteEvent

/-! ## Placing -/

theorem dataByte_of_not_bounds {value : Int} (h : ¬(0 ≤ value ∧ value ≤ 127)) :
    dataByte (.int value) = .error .dataByteRange := by
  have hlt : ¬(0 ≤ value ∧ value.toNat < 127 + 1) := by omega
  rw [dataByte, toFin?, dif_neg hlt]
  rfl

namespace NoteEvent

variable {e : NoteEvent}

theorem Steady.isWhole (h : e.Steady) : e.IsWhole where
  duration := by
    obtain ⟨ticks, hpos, hticks⟩ := h.duration
    exact ⟨ticks, by omega, hticks⟩
  wait := by
    obtain ⟨ticks, hticks⟩ := h.wait
    exact ⟨ticks, hticks⟩
  tick tick htick := by
    obtain ⟨ticks, hticks⟩ := h.tick tick htick
    exact ⟨ticks, hticks⟩

/-- a steady event behind a tick starts at a tick and ends at one -/
theorem Steady.exists_span (h : e.Steady) (cursor : Nat) :
    ∃ start stop : Nat, e.start (.int cursor) = .ok (.int start) ∧
      (Number.int start).add e.duration = .ok (.int stop) := by
  obtain ⟨duration, -, hduration⟩ := h.duration
  obtain ⟨wait, hwait⟩ := h.wait
  have hstop (start : Nat) : (Number.int start).add e.duration = .ok (.int (start + duration : Nat)) := by
    rw [hduration, Number.add_int, Nat.cast_add]
  cases htick : e.tick with
  | none =>
    refine ⟨cursor + wait, _, ?_, hstop _⟩
    rw [start, htick, hwait, Nat.cast_add]
    exact Number.add_int _ _
  | some tick =>
    obtain ⟨start, rfl⟩ := h.tick tick htick
    refine ⟨start, _, ?_, hstop start⟩
    rw [NoteEvent.start, htick]

/-- the message of a note of a steady event depends on its pitch alone -/
theorem Steady.note_eq (h : e.Steady) {data : Int} (hdata : 0 ≤ data ∧ data ≤ 127)
    (make : Channel → DataByte → DataByte → Message) (pitch : Number) :
    e.note make data pitch = (dataByte pitch).map fun note => make 0 note (wrapped 127 data) := by
  have hchannel : Midi.channel e.channel = .ok 0 := by
    rw [h.channel]
    rfl
  rw [note, hchannel, dataByte_of_bounds hdata]
  cases dataByte pitch with
  | error error => rfl
  | ok note => rfl

theorem Steady.exists_notes (h : e.Steady) (hrange : e.InRange) {data : Int} (hdata : 0 ≤ data ∧ data ≤ 127)
    (make : Channel → DataByte → DataByte → Message) : ∃ messages, e.notes make data = .ok messages := by
  refine exists_mapM fun pitch hpitch => ?_
  obtain ⟨note, rfl⟩ := h.pitches pitch hpitch
  rw [h.note_eq hdata, dataByte_of_bounds (hrange note hpitch)]
  exact ⟨_, rfl⟩

theorem Steady.notes_of_not_inRange (h : e.Steady) (hrange : ¬e.InRange) {data : Int} (hdata : 0 ≤ data ∧ data ≤ 127)
    (make : Channel → DataByte → DataByte → Message) : e.notes make data = .error .dataByteRange := by
  have herror (note : Int) (hnote : ¬(0 ≤ note ∧ note ≤ 127)) :
      e.note make data (.int note) = .error .dataByteRange := by
    rw [h.note_eq hdata, dataByte_of_not_bounds hnote]
    rfl
  refine mapM_eq_error (fun pitch hpitch => ?_) ?_
  · obtain ⟨note, rfl⟩ := h.pitches pitch hpitch
    by_cases hnote : 0 ≤ note ∧ note ≤ 127
    · rw [h.note_eq hdata, dataByte_of_bounds hnote]
      exact .inr ⟨_, rfl⟩
    · exact .inl (herror note hnote)
  · simp only [InRange, not_forall] at hrange
    obtain ⟨note, hpitch, hnote⟩ := hrange
    exact ⟨.int note, hpitch, herror note hnote⟩

/-- a steady event is placed if its pitches are data bytes -/
theorem Steady.exists_place (h : e.Steady) (hrange : e.InRange) (cursor : Nat) :
    ∃ (stamps : List Stamp) (next : Nat), e.place (.int cursor) = .ok (stamps.map Stamp.placed, .int next) ∧
      ∀ s ∈ stamps, 0 ≤ s.tick := by
  obtain ⟨start, stop, hstart, hstop⟩ := h.exists_span cursor
  obtain ⟨data, htoData, hdata⟩ := h.velocity
  obtain ⟨starts, hstarts⟩ := h.exists_notes hrange hdata .noteOn
  obtain ⟨ends, hends⟩ := h.exists_notes hrange hdata .noteOff
  refine ⟨starts.map (⟨start, ·⟩) ++ ends.map (⟨stop, ·⟩), if e.tick.isNone then stop else cursor, ?_, ?_⟩
  · refine bind_eq_ok.2 ⟨_, mapError_eq_ok.2 hstart, bind_eq_ok.2 ⟨_, mapError_eq_ok.2 hstop, ?_⟩⟩
    refine bind_eq_ok.2 ⟨_, mapError_eq_ok.2 htoData, bind_eq_ok.2 ⟨_, mapError_eq_ok.2 hstarts, ?_⟩⟩
    refine bind_eq_ok.2 ⟨_, mapError_eq_ok.2 hends, ?_⟩
    simp only [List.map_append, List.map_map, Function.comp_def, Stamp.placed]
    split <;> rfl
  · intro s hs
    rcases List.mem_append.1 hs with hs | hs
    · obtain ⟨m, -, rfl⟩ := List.mem_map.1 hs
      exact Int.natCast_nonneg start
    · obtain ⟨m, -, rfl⟩ := List.mem_map.1 hs
      exact Int.natCast_nonneg stop

theorem Steady.place_of_not_inRange (h : e.Steady) (hrange : ¬e.InRange) (cursor : Nat) :
    e.place (.int cursor) = .error (.field .dataByteRange) := by
  obtain ⟨start, stop, hstart, hstop⟩ := h.exists_span cursor
  obtain ⟨data, htoData, hdata⟩ := h.velocity
  have hnotes := h.notes_of_not_inRange hrange hdata .noteOn
  refine (bind_of_ok (mapError_eq_ok.2 hstart)).trans ((bind_of_ok (mapError_eq_ok.2 hstop)).trans ?_)
  exact (bind_of_ok (mapError_eq_ok.2 htoData)).trans (bind_of_error (mapError_of_error hnotes))

end NoteEvent

/-- **Placing steady events.** They are placed from the start on if all pitches are data bytes. -/
theorem exists_placeEvents_of_steady {events : List NoteEvent} (h : ∀ e ∈ events, e.Steady)
    (hrange : ∀ e ∈ events, e.InRange) (cursor : Nat) :
    ∃ stamps : List Stamp, placeEvents (.int cursor) events = .ok (stamps.map Stamp.placed) ∧
      ∀ s ∈ stamps, 0 ≤ s.tick := by
  induction events generalizing cursor with
  | nil => exact ⟨[], rfl, fun s hs => (List.not_mem_nil hs).elim⟩
  | cons e events ih =>
    obtain ⟨stamps, next, hplace, hstamps⟩ := (h e List.mem_cons_self).exists_place (hrange e List.mem_cons_self) cursor
    obtain ⟨others, hothers, hticks⟩ := ih (fun e he => h e (List.mem_cons_of_mem _ he))
      (fun e he => hrange e (List.mem_cons_of_mem _ he)) next
    refine ⟨stamps ++ others, bind_eq_ok.2 ⟨_, hplace, bind_eq_ok.2 ⟨_, hothers, ?_⟩⟩, fun s hs => ?_⟩
    · rw [List.map_append]
      rfl
    · rcases List.mem_append.1 hs with hs | hs
      · exact hstamps s hs
      · exact hticks s hs

/-- otherwise they are not, and the error says why -/
theorem placeEvents_of_not_inRange {events : List NoteEvent} (h : ∀ e ∈ events, e.Steady)
    (hrange : ∃ e ∈ events, ¬e.InRange) (cursor : Nat) :
    placeEvents (.int cursor) events = .error (.field .dataByteRange) := by
  induction events generalizing cursor with
  | nil =>
    obtain ⟨e, he, -⟩ := hrange
    exact (List.not_mem_nil he).elim
  | cons e events ih =>
    have hsteady := h e List.mem_cons_self
    by_cases hfirst : e.InRange
    · obtain ⟨stamps, next, hplace, -⟩ := hsteady.exists_place hfirst cursor
      have hothers : ∃ e ∈ events, ¬e.InRange := by
        obtain ⟨e', he', hnot⟩ := hrange
        rcases List.mem_cons.1 he' with rfl | he'
        · exact (hnot hfirst).elim
        · exact ⟨e', he', hnot⟩
      have hrest := ih (fun e he => h e (List.mem_cons_of_mem _ he)) hothers next
      exact (bind_of_ok hplace).trans (bind_of_error hrest)
    · exact bind_of_error (hsteady.place_of_not_inRange hfirst cursor)

/-! ## Tracks of steady events -/

namespace Track

variable {t : Track}

/-- steady events whose pitches are data bytes make messages in which time runs forward -/
theorem forward_of_steady (h : ∀ e ∈ t.events, e.Steady) (hrange : ∀ e ∈ t.events, e.InRange) : t.Forward := by
  obtain ⟨stamps, hstamps, hticks⟩ := exists_placeEvents_of_steady h hrange 0
  refine forward_of_timeline (timeline_of_placeEvents hstamps) fun s hs => ?_
  rcases List.mem_append.1 hs with hs | hs
  · obtain ⟨m, -, rfl⟩ := List.mem_map.1 hs
    exact le_rfl
  · exact hticks s hs

/-- a pitch that is no data byte is refused when the messages are made -/
theorem messages_of_not_inRange (h : ∀ e ∈ t.events, e.Steady) (hrange : ∃ e ∈ t.events, ¬e.InRange) :
    t.messages = .error (.field .dataByteRange) := by
  exact bind_of_error (bind_of_error (placeEvents_of_not_inRange h hrange 0))

end Track

end Drumline
