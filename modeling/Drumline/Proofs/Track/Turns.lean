/-
Notes in turns. In a track whose events follow one another, each behind the one before it and with no note twice, the
starts and the ends of a note take turns: the note has ended before it starts again. It may start on the very tick on
which it ends, since ends sort before starts there.

`turnsFrom_of_placeEvents` says so of the messages as they are placed, note by note. The invariant is that the cursor
has passed every end. Such messages of one note are in order already, so sorting all messages leaves them as they are
(`filter_mergeSort_of_pairwise`), whatever other notes do on the same ticks.
-/
import Drumline.Proofs.Track.Merge

namespace Drumline

open Midi

/-! ## Model -/

/-- whether a message starts or ends a note, on any channel -/
def Midi.Message.concerns (note : DataByte) : Message → Bool
  | .noteOn _ n _ => n == note
  | .noteOff _ n _ => n == note
  | _ => false

def Stamp.concerns (note : DataByte) (s : Stamp) : Bool := s.message.concerns note

/-- whether messages start and end a note in turns: first a start, and right behind each start its end -/
inductive InTurns (note : DataByte) : List Message → Prop
  | nil : InTurns note []
  | cons {channel : Channel} {velocity : DataByte} {rest : List Message} (hrest : InTurns note rest) :
    InTurns note (.noteOn channel note velocity :: .noteOff channel note velocity :: rest)

/-- whether messages at ticks start and end a note in turns from some tick on, each end later than its start -/
inductive TurnsFrom (note : DataByte) : Int → List Stamp → Prop
  | nil {now : Int} : TurnsFrom note now []
  | cons {now start stop : Int} {channel : Channel} {velocity : DataByte} {rest : List Stamp} (hstart : now ≤ start)
    (hstop : start < stop) (hrest : TurnsFrom note stop rest) :
    TurnsFrom note now (⟨start, .noteOn channel note velocity⟩ :: ⟨stop, .noteOff channel note velocity⟩ :: rest)

/-- whether an event follows the one before it, lasts, and has no note twice -/
structure NoteEvent.Follows (e : NoteEvent) : Prop where
  tick : e.tick = none
  wait : ∃ ticks : Nat, e.wait = .int ticks
  duration : ∃ ticks : Nat, 1 ≤ ticks ∧ e.duration = .int ticks
  pitches : e.pitches.Nodup

/-! ## Turns -/

theorem Midi.Message.concerns_eq_false {m : Message} (h : m.rank = 0) (note : DataByte) : m.concerns note = false := by
  cases m with
  | noteOn => cases h
  | noteOff => cases h
  | _ => rfl

namespace TurnsFrom

variable {note : DataByte} {now : Int} {stamps : List Stamp}

theorem mono {sooner : Int} (hle : sooner ≤ now) (h : TurnsFrom note now stamps) : TurnsFrom note sooner stamps := by
  cases h with
  | nil => exact .nil
  | cons hstart hstop hrest => exact .cons (hle.trans hstart) hstop hrest

theorem bounds (h : TurnsFrom note now stamps) : ∀ s ∈ stamps, now ≤ s.tick ∧ 1 ≤ s.message.rank := by
  induction h with
  | nil => exact fun s hs => (List.not_mem_nil hs).elim
  | cons hstart hstop _ ih =>
    intro s hs
    rcases List.mem_cons.1 hs with rfl | hs
    · exact ⟨hstart, Nat.succ_le_succ (Nat.zero_le 1)⟩
    · rcases List.mem_cons.1 hs with rfl | hs
      · exact ⟨(hstart.trans_lt hstop).le, le_rfl⟩
      · obtain ⟨htick, hrank⟩ := ih s hs
        exact ⟨(hstart.trans_lt hstop).le.trans htick, hrank⟩

theorem pairwise (h : TurnsFrom note now stamps) : stamps.Pairwise (fun a b => a.le b) := by
  have hle (a b : Stamp) (hab : a.tick < b.tick ∨ (a.tick = b.tick ∧ a.message.rank ≤ b.message.rank)) :
      a.le b = true := by
    simpa [Stamp.le] using hab
  induction h with
  | nil => exact .nil
  | cons hstart hstop hrest ih =>
    refine List.pairwise_cons.2 ⟨fun s hs => ?_, List.pairwise_cons.2 ⟨fun s hs => ?_, ih⟩⟩
    · rcases List.mem_cons.1 hs with rfl | hs
      · exact hle _ _ (.inl hstop)
      · exact hle _ _ (.inl (hstop.trans_le (hrest.bounds s hs).1))
    · -- on the tick of an end the next start comes behind it
      obtain ⟨htick, hrank⟩ := hrest.bounds s hs
      exact hle _ _ (htick.lt_or_eq.imp_right fun heq => ⟨heq, hrank⟩)

theorem inTurns (h : TurnsFrom note now stamps) : InTurns note (stamps.map (·.message)) := by
  induction h with
  | nil => exact .nil
  | cons _ _ _ ih => exact .cons ih

end TurnsFrom

/-! ## Placing events -/

/-- of a list in which a value occurs at most once there is one member at most that has it -/
theorem filter_eq_of_nodup {α β : Type} [BEq β] [LawfulBEq β] {f : α → β} {l : List α} (h : (l.map f).Nodup) (b : β) :
    (b ∉ l.map f ∧ l.filter (f · == b) = []) ∨ b ∈ l.map f ∧ ∃ a, f a = b ∧ l.filter (f · == b) = [a] := by
  induction l with
  | nil => exact .inl ⟨List.not_mem_nil, rfl⟩
  | cons a l ih =>
    obtain ⟨hnot, hrest⟩ := List.nodup_cons.1 h
    by_cases ha : f a = b
    · have hnone : l.filter (f · == b) = [] := by
        rcases ih hrest with ⟨-, hnil⟩ | ⟨hmem, -⟩
        · exact hnil
        · exact (hnot (ha ▸ hmem)).elim
      refine .inr ⟨ha ▸ List.mem_cons_self, a, ha, ?_⟩
      rw [List.filter_cons_of_pos (by simpa using ha), hnone]
    · have hskip : (a :: l).filter (f · == b) = l.filter (f · == b) := List.filter_cons_of_neg (by simpa using ha)
      rw [hskip, List.map_cons, List.mem_cons, or_iff_right (Ne.symm ha)]
      exact ih hrest

/-- **One event.** An event that follows another is placed behind it, and of each note among its pitches it has the
start and, later, the end. -/
theorem NoteEvent.Follows.place_eq_ok {e : NoteEvent} (h : e.Follows) {cursor : Int} {placed : List Placed}
    {next : Number} (hplace : e.place (.int cursor) = .ok (placed, next)) :
    ∃ (start stop : Int) (stamps : List Stamp), cursor ≤ start ∧ start < stop ∧ next = .int stop ∧
      placed = stamps.map Stamp.placed ∧ ∀ note : DataByte,
        (.int (note : Int) ∉ e.pitches ∧ stamps.filter (Stamp.concerns note) = []) ∨
        (.int (note : Int) ∈ e.pitches ∧ ∃ channel velocity, stamps.filter (Stamp.concerns note) =
          [⟨start, .noteOn channel note velocity⟩, ⟨stop, .noteOff channel note velocity⟩]) := by
  obtain ⟨wait, hwait⟩ := h.wait
  obtain ⟨duration, hpos, hduration⟩ := h.duration
  obtain ⟨start, stop, velocity, values, hstart, hstop, hvalues, rfl, rfl⟩ := NoteEvent.place_eq_ok hplace
  rw [NoteEvent.start, h.tick] at hstart
  rw [hwait] at hstart
  obtain rfl : Number.int (cursor + wait) = start := Except.ok.inj hstart
  rw [hduration, Number.add_int] at hstop
  obtain rfl := Except.ok.inj hstop
  refine ⟨cursor + wait, cursor + wait + duration,
    values.map (fun v => ⟨cursor + wait, .noteOn v.1 v.2.1 v.2.2⟩) ++
      values.map (fun v => ⟨cursor + wait + duration, .noteOff v.1 v.2.1 v.2.2⟩), by omega, by omega, ?_, ?_, ?_⟩
  · rw [h.tick]
    rfl
  · rw [List.map_append, List.map_map, List.map_map]
    rfl
  · intro note
    have hpitches := NoteEvent.pitches_eq_of_values hvalues
    have hnodup : (values.map (·.2.1)).Nodup := by
      have hpitchesNodup := h.pitches
      rw [hpitches] at hpitchesNodup
      refine List.Nodup.of_map (fun n : DataByte => Number.int (n : Int)) ?_
      rw [List.map_map]
      exact hpitchesNodup
    have hmem : .int (note : Int) ∈ e.pitches ↔ note ∈ values.map (·.2.1) := by
      rw [hpitches]
      simp [Fin.val_inj]
    have hconcerns (tick : Int) (make : Channel → DataByte → DataByte → Message)
        (hmake : ∀ channel n velocity, (make channel n velocity).concerns note = (n == note)) :
        (values.map fun v => Stamp.mk tick (make v.1 v.2.1 v.2.2)).filter (Stamp.concerns note) =
          (values.filter (·.2.1 == note)).map fun v => ⟨tick, make v.1 v.2.1 v.2.2⟩ := by
      rw [List.filter_map]
      refine congrArg (List.map _) (List.filter_congr fun v _ => hmake v.1 v.2.1 v.2.2)
    rw [hmem, List.filter_append, hconcerns _ .noteOn fun _ _ _ => rfl, hconcerns _ .noteOff fun _ _ _ => rfl]
    rcases filter_eq_of_nodup hnodup note with ⟨hnot, hnil⟩ | ⟨hin, v, rfl, hone⟩
    · exact .inl ⟨hnot, by rw [hnil]; rfl⟩
    · exact .inr ⟨hin, v.1, v.2.2, by rw [hone]; rfl⟩

/-- **A run of events.** Events that follow one another place the messages of each note in turns, one start and one end
for every event that has the note. -/
theorem turnsFrom_of_placeEvents {events : List NoteEvent} {cursor : Int} {stamps : List Stamp}
    (hplaced : placeEvents (.int cursor) events = .ok (stamps.map Stamp.placed)) (h : ∀ e ∈ events, e.Follows)
    (note : DataByte) :
    TurnsFrom note cursor (stamps.filter (Stamp.concerns note)) ∧
      (stamps.filter (Stamp.concerns note)).length =
        2 * events.countP fun e => decide (.int (note : Int) ∈ e.pitches) := by
  induction events generalizing cursor stamps with
  | nil =>
    obtain rfl : stamps = [] := List.map_eq_nil_iff.1 (Except.ok.inj hplaced).symm
    exact ⟨.nil, rfl⟩
  | cons e events ih =>
    obtain ⟨next, front, back, rfl, hfirst, hothers⟩ := placeEvents_cons_eq_ok hplaced
    obtain ⟨start, stop, here, hstart, hstop, rfl, hfront, hnote⟩ := (h e List.mem_cons_self).place_eq_ok hfirst
    obtain rfl := List.map_injective_iff.2 Stamp.placed_injective hfront
    obtain ⟨hturns, hcount⟩ := ih hothers fun e he => h e (List.mem_cons_of_mem _ he)
    rw [List.filter_append, List.length_append, hcount]
    -- an event without the note only moves the cursor on, which leaves the turns behind it as they are
    rcases hnote note with ⟨hnot, hnil⟩ | ⟨hin, channel, velocity, hone⟩
    · rw [hnil, List.countP_cons_of_neg (by simpa using hnot)]
      exact ⟨hturns.mono (by omega), Nat.zero_add _⟩
    · rw [hone, List.countP_cons_of_pos (by simpa using hin)]
      refine ⟨.cons hstart hstop hturns, ?_⟩
      rw [List.length_cons, List.length_singleton]
      omega

/-! ## The messages of a track -/

/-- a sort leaves those members of a list as they are that are in order already -/
theorem filter_mergeSort_of_pairwise {α : Type} {le : α → α → Bool} (trans : ∀ a b c, le a b → le b c → le a c)
    (total : ∀ a b, le a b || le b a) {l : List α} {q : α → Bool} (h : (l.filter q).Pairwise (fun a b => le a b)) :
    (l.mergeSort le).filter q = l.filter q := by
  have hsublist := (List.sublist_mergeSort trans total h List.filter_sublist).filter q
  rw [List.filter_filter] at hsublist
  simp only [Bool.and_self] at hsublist
  exact (hsublist.eq_of_length ((List.mergeSort_perm l le).filter q).length_eq.symm).symm

theorem map_message_deltas (last : Int) (stamps : List Stamp) :
    (deltas last stamps).map (·.message) = stamps.map (·.message) := by
  induction stamps generalizing last with
  | nil => rfl
  | cons s stamps ih => rw [deltas, List.map_cons, List.map_cons, ih]

/-- **Notes in turns.** In a track of events that follow one another, the messages of each note take turns, and there
are two for every event that has the note. -/
theorem inTurns_of_messages {t : Track} (hmetas : ∀ m ∈ t.metas, m.rank = 0) (h : ∀ e ∈ t.events, e.Follows)
    {stamps : List Stamp} (hplaced : placeEvents 0 t.events = .ok (stamps.map Stamp.placed))
    {timed : List (Timed Message)} (htimed : t.messages = .ok timed) (note : DataByte) :
    InTurns note ((timed.map (·.message)).filter (Message.concerns note)) ∧
      ((timed.map (·.message)).filter (Message.concerns note)).length =
        2 * t.events.countP fun e => decide (.int (note : Int) ∈ e.pitches) := by
  obtain ⟨hturns, hcount⟩ := turnsFrom_of_placeEvents (show placeEvents (.int 0) t.events = _ from hplaced) h note
  obtain rfl := Except.ok.inj ((messages_of_timeline (timeline_of_placeEvents hplaced)).symm.trans htimed)
  have hsilent : (t.metas.map (Stamp.mk 0)).filter (Stamp.concerns note) = [] := by
    rw [List.filter_eq_nil_iff]
    intro s hs
    obtain ⟨m, hm, rfl⟩ := List.mem_map.1 hs
    rw [Stamp.concerns, Message.concerns_eq_false (hmetas m hm)]
    exact Bool.false_ne_true
  have hfilter : (t.metas.map (Stamp.mk 0) ++ stamps).filter (Stamp.concerns note) =
      stamps.filter (Stamp.concerns note) := by
    rw [List.filter_append, hsilent, List.nil_append]
  have hsorted := filter_mergeSort_of_pairwise Stamp.le_trans Stamp.le_total (hfilter ▸ hturns.pairwise)
  generalize (t.metas.map (Stamp.mk 0) ++ stamps).mergeSort Stamp.le = sorted at hsorted
  have hmessages : ((deltas 0 sorted ++ [(⟨0, .endOfTrack⟩ : Timed Message)]).map (·.message)).filter
      (Message.concerns note) = (stamps.filter (Stamp.concerns note)).map (·.message) := by
    rw [List.map_append, map_message_deltas, List.filter_append, List.filter_map, ← hfilter, ← hsorted]
    exact List.append_nil _
  rw [hmessages, List.length_map]
  exact ⟨hturns.inTurns, hcount⟩

end Drumline
