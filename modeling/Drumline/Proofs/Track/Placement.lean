/-
Tracks whose events have only whole numbers in their fields, as what is heard of them: for each note of an event its
start and its end, at absolute ticks (`Sounding`, `soundingsFrom`). For these the numbers of a track cannot fail to add
up, and its messages are known: `messages_eq` says that they are its stamps in order, each with the ticks since the one
before. Backwards, `heard?` adds the ticks up again, and `heard?_deltas` says that it hears what was placed.
-/
import Drumline.Proofs.Except
import Drumline.Proofs.Number.Rounding
import Drumline.Track.Timeline

namespace Drumline

open Midi

/-! ## Model -/

/-- what is heard of a note at a tick: its start, or its end -/
structure Sounding where
  tick : Int
  starts : Bool
  channel : Int
  note : Int
  velocity : Int
deriving DecidableEq, Repr

structure WholeEvent where
  pitches : List Int
  duration : Int
  velocity : Int
  wait : Int := 0
  tick : Option Int := none
  channel : Int := 0
deriving DecidableEq, Repr

/-- a message at a whole tick -/
structure Stamp where
  tick : Int
  message : Message
deriving DecidableEq

/-- a whole number as a value below `n + 1`: itself, if it is one -/
def wrapped (n : Nat) (value : Int) : Fin (n + 1) := Fin.ofNat (n + 1) value.toNat

namespace Sounding

/-- by tick, and on the same tick ends before starts -/
def le (a b : Sounding) : Bool := a.tick < b.tick || (a.tick == b.tick && (!a.starts || b.starts))

/-- whether a message can hold the values -/
structure Fits (s : Sounding) : Prop where
  channel : 0 ≤ s.channel ∧ s.channel ≤ 15
  note : 0 ≤ s.note ∧ s.note ≤ 127
  velocity : 0 ≤ s.velocity ∧ s.velocity ≤ 127

def message (s : Sounding) : Message :=
  (if s.starts then Message.noteOn else Message.noteOff) (wrapped 15 s.channel) (wrapped 127 s.note)
    (wrapped 127 s.velocity)

def stamp (s : Sounding) : Stamp := ⟨s.tick, s.message⟩

end Sounding

namespace Stamp

/-- by tick, and on the same tick by rank -/
def le (a b : Stamp) : Bool := a.tick < b.tick || (a.tick == b.tick && a.message.rank ≤ b.message.rank)

def placed (s : Stamp) : Placed := ⟨.int s.tick, s.message⟩

end Stamp

namespace WholeEvent

def toEvent (e : WholeEvent) : NoteEvent :=
  { pitches := e.pitches.map .int
    duration := .int e.duration
    velocity := .int e.velocity
    wait := .int e.wait
    tick := e.tick.map .int
    channel := .int e.channel }

/-- where the event starts, with the cursor at the end of the event before it that has no tick -/
def start (e : WholeEvent) (cursor : Int) : Int := e.tick.getD (cursor + e.wait)

/-- the cursor behind the event, which an event with a tick leaves where it is -/
def next (e : WholeEvent) (cursor : Int) : Int := if e.tick.isSome then cursor else e.start cursor + e.duration

def loudness (e : WholeEvent) : Int := (Velocity.toData (.int e.velocity)).toOption.getD 0

/-- what is heard of the event if it starts at a tick -/
def soundings (e : WholeEvent) (start : Int) : List Sounding :=
  e.pitches.map (fun pitch => ⟨start, true, e.channel, pitch, e.loudness⟩) ++
    e.pitches.map (fun pitch => ⟨start + e.duration, false, e.channel, pitch, e.loudness⟩)

/-- whether the velocity can be converted, and messages can hold every note of the event -/
structure Playable (e : WholeEvent) : Prop where
  converts : Velocity.toData (.int e.velocity) = .ok e.loudness
  pitches : ∀ pitch ∈ e.pitches, 0 ≤ pitch ∧ pitch ≤ 127
  channel : e.pitches ≠ [] → 0 ≤ e.channel ∧ e.channel ≤ 15
  loudness : e.pitches ≠ [] → 0 ≤ e.loudness ∧ e.loudness ≤ 127

end WholeEvent

/-- what is heard of events, in the order in which they were added -/
def soundingsFrom (cursor : Int) : List WholeEvent → List Sounding
  | [] => []
  | e :: events => e.soundings (e.start cursor) ++ soundingsFrom (e.next cursor) events

/-- the messages of stamps, with the ticks from each to the next -/
def deltas (last : Int) : List Stamp → List (Timed Message)
  | [] => []
  | s :: rest => ⟨.int (s.tick - last), s.message⟩ :: deltas s.tick rest

/-- what is heard of messages from a tick on; none if one of them is no note or has a delta that is not whole -/
def heard? (now : Int) : List (Timed Message) → Option (List Sounding)
  | [] => some []
  | ⟨.int delta, .noteOn channel note velocity⟩ :: rest =>
    (heard? (now + delta) rest).map (⟨now + delta, true, channel, note, velocity⟩ :: ·)
  | ⟨.int delta, .noteOff channel note velocity⟩ :: rest =>
    (heard? (now + delta) rest).map (⟨now + delta, false, channel, note, velocity⟩ :: ·)
  | _ => none

/-- every message of a track at its tick, as they were added: meta messages, then those of the notes -/
def stampsOf (metas : List Message) (events : List WholeEvent) : List Stamp :=
  metas.map (⟨0, ·⟩) ++ (soundingsFrom 0 events).map Sounding.stamp

/-! ## The order of the messages -/

theorem Stamp.le_trans (a b c : Stamp) (hab : a.le b) (hbc : b.le c) : a.le c := by
  simp only [Stamp.le, Bool.or_eq_true, Bool.and_eq_true, decide_eq_true_eq, beq_iff_eq] at *
  omega

theorem Stamp.le_total (a b : Stamp) : a.le b || b.le a := by
  simp only [Stamp.le, Bool.or_eq_true, Bool.and_eq_true, decide_eq_true_eq, beq_iff_eq]
  omega

theorem Stamp.placed_injective : Function.Injective Stamp.placed := by
  rintro ⟨tick, message⟩ ⟨tick', message'⟩ h
  cases h
  rfl

theorem Stamp.le_placed (a b : Stamp) : a.placed.le b.placed = a.le b := by
  show (Number.lt (.int a.tick) (.int b.tick) ||
    (Number.eqv (.int a.tick) (.int b.tick) && decide (a.message.rank ≤ b.message.rank))) = _
  rw [Number.lt_int_int, Number.eqv_int_int, Stamp.le, Bool.eq_iff_iff]
  simp

theorem Sounding.rank_message (s : Sounding) : s.message.rank = if s.starts then 2 else 1 := by
  cases h : s.starts <;> simp [Sounding.message, h, Message.rank]

theorem Sounding.le_stamp (a b : Sounding) : a.stamp.le b.stamp = a.le b := by
  simp only [Sounding.stamp, Stamp.le, Sounding.le, Sounding.rank_message]
  cases a.starts <;> cases b.starts <;> rfl

/-- a stable sort leaves in front what is in order and at most everything behind it -/
theorem mergeSort_append_of_le {α : Type} {le : α → α → Bool} (trans : ∀ a b c, le a b → le b c → le a c)
    (total : ∀ a b, le a b || le b a) {front back : List α} (hfront : front.Pairwise (fun a b => le a b))
    (h : ∀ a ∈ front, ∀ b ∈ back, le a b) : (front ++ back).mergeSort le = front ++ back.mergeSort le := by
  induction front with
  | nil => rfl
  | cons a front ih =>
    obtain ⟨l, r, hcons, hrest, hl⟩ := List.mergeSort_cons trans total a (front ++ back)
    have hnil : l = [] := by
      rw [List.eq_nil_iff_forall_not_mem]
      intro b hb
      have hmem : b ∈ front ++ back := by
        have hb : b ∈ (front ++ back).mergeSort le := hrest ▸ List.mem_append_left _ hb
        exact List.mem_mergeSort.1 hb
      have hle : le a b := by
        rcases List.mem_append.1 hmem with hb | hb
        · exact (List.pairwise_cons.1 hfront).1 b hb
        · exact h a List.mem_cons_self b hb
      have := hl b hb
      simp [hle] at this
    subst hnil
    rw [List.cons_append, hcons, List.nil_append, ← List.nil_append r, ← hrest,
      ih (List.pairwise_cons.1 hfront).2 fun b hb => h b (List.mem_cons_of_mem _ hb)]
    rfl

/-! ## Placing events -/

theorem toFin?_of_bounds {n : Nat} {value : Int} (h : 0 ≤ value ∧ value ≤ n) :
    toFin? n value = some (wrapped n value) := by
  have hlt : 0 ≤ value ∧ value.toNat < n + 1 := ⟨h.1, by omega⟩
  rw [toFin?, dif_pos hlt]
  congr 1
  apply Fin.ext
  rw [wrapped, Fin.val_ofNat, Nat.mod_eq_of_lt hlt.2]

theorem bounds_of_toFin? {n : Nat} {value : Int} {x : Fin (n + 1)} (h : toFin? n value = some x) :
    0 ≤ value ∧ value ≤ n := by
  unfold toFin? at h
  split at h
  · rename_i hbounds
    omega
  · cases h

theorem dataByte_of_bounds {value : Int} (h : 0 ≤ value ∧ value ≤ 127) :
    dataByte (.int value) = .ok (wrapped 127 value) := by
  rw [dataByte, toFin?_of_bounds (by omega)]
  rfl

theorem bounds_of_dataByte {value : Int} {x : DataByte} (h : dataByte (.int value) = .ok x) :
    0 ≤ value ∧ value ≤ 127 := by
  unfold dataByte at h
  cases hfin : toFin? 127 value with
  | none => simp [hfin] at h
  | some y => exact bounds_of_toFin? hfin

theorem channel_of_bounds {value : Int} (h : 0 ≤ value ∧ value ≤ 15) :
    channel (.int value) = .ok (wrapped 15 value) := by
  rw [channel, toFin?_of_bounds (by omega)]
  rfl

theorem bounds_of_channel {value : Int} {x : Channel} (h : channel (.int value) = .ok x) :
    0 ≤ value ∧ value ≤ 15 := by
  unfold channel at h
  cases hfin : toFin? 15 value with
  | none => simp [hfin] at h
  | some y => exact bounds_of_toFin? hfin

theorem bounds_of_attributeUpTo {n : Nat} {value : Int} {x : Fin (n + 1)} (h : attributeUpTo n (.int value) = .ok x) :
    0 ≤ value ∧ value ≤ n := by
  unfold attributeUpTo at h
  cases hfin : toFin? n value with
  | none => simp [hfin] at h
  | some y => exact bounds_of_toFin? hfin

namespace WholeEvent

variable {e : WholeEvent}

/-- one message for each pitch of a playable event -/
theorem notes_eq (h : e.Playable) (make : Channel → DataByte → DataByte → Message) :
    e.toEvent.notes make e.loudness = .ok (e.pitches.map fun pitch =>
      make (wrapped 15 e.channel) (wrapped 127 pitch) (wrapped 127 e.loudness)) := by
  show (e.pitches.map Number.int).mapM (e.toEvent.note make e.loudness) = _
  rw [List.mapM_map]
  apply mapM_eq_ok_map
  intro pitch hpitch
  have hne : e.pitches ≠ [] := List.ne_nil_of_mem hpitch
  show (do
    let channel ← Midi.channel (Number.int e.channel)
    let note ← dataByte (Number.int pitch)
    let velocity ← dataByte (Number.int e.loudness)
    return make channel note velocity) = _
  rw [channel_of_bounds (h.channel hne), dataByte_of_bounds (h.pitches pitch hpitch),
    dataByte_of_bounds (h.loudness hne)]
  rfl

theorem loudness_eq {data : Int} (h : Velocity.toData (.int e.velocity) = .ok data) : e.loudness = data := by
  rw [loudness, h]
  rfl

theorem toEvent_start (e : WholeEvent) (cursor : Int) :
    e.toEvent.start (.int cursor) = .ok (.int (e.start cursor)) := by
  unfold NoteEvent.start WholeEvent.toEvent WholeEvent.start
  cases e.tick <;> rfl

/-- where the messages of a playable event are placed -/
theorem place_eq (h : e.Playable) (cursor : Int) :
    e.toEvent.place (.int cursor) =
      .ok ((e.soundings (e.start cursor)).map fun s => s.stamp.placed, .int (e.next cursor)) := by
  have hnext : (if e.toEvent.tick.isNone then Number.int (e.start cursor + e.duration) else .int cursor) =
      .int (e.next cursor) := by
    unfold WholeEvent.toEvent WholeEvent.next
    cases e.tick <;> rfl
  have hvelocity : Velocity.toData e.toEvent.velocity = .ok e.loudness := h.converts
  unfold NoteEvent.place
  rw [toEvent_start, hvelocity]
  show (do
    let starts ← (liftM (e.toEvent.notes .noteOn e.loudness) : Except ScoreError _)
    let ends ← (liftM (e.toEvent.notes .noteOff e.loudness) : Except ScoreError _)
    return (starts.map (Placed.mk (.int (e.start cursor))) ++
        ends.map (Placed.mk (.int (e.start cursor + e.duration))),
      if e.toEvent.tick.isNone then Number.int (e.start cursor + e.duration) else .int cursor)) = _
  rw [notes_eq h, notes_eq h]
  show Except.ok (_, (if e.toEvent.tick.isNone then Number.int (e.start cursor + e.duration) else .int cursor)) = _
  rw [hnext, soundings, List.map_append, List.map_map, List.map_map, List.map_map, List.map_map]
  rfl

end WholeEvent

theorem placeEvents_eq {events : List WholeEvent} (h : ∀ e ∈ events, e.Playable) (cursor : Int) :
    placeEvents (.int cursor) (events.map WholeEvent.toEvent) =
      .ok ((soundingsFrom cursor events).map fun s => s.stamp.placed) := by
  induction events generalizing cursor with
  | nil => rfl
  | cons e events ih =>
    rw [List.map_cons, placeEvents, e.place_eq (h e List.mem_cons_self)]
    show (placeEvents (.int (e.next cursor)) _ >>= fun others => pure (_ ++ others)) = _
    rw [ih fun e he => h e (List.mem_cons_of_mem _ he), soundingsFrom, List.map_append]
    rfl

/-- events at whole ticks are placed one after the other -/
theorem placeEvents_cons_eq_ok {e : NoteEvent} {events : List NoteEvent} {cursor : Number} {stamps : List Stamp}
    (h : placeEvents cursor (e :: events) = .ok (stamps.map Stamp.placed)) :
    ∃ next front back, stamps = front ++ back ∧ e.place cursor = .ok (front.map Stamp.placed, next) ∧
      placeEvents next events = .ok (back.map Stamp.placed) := by
  obtain ⟨⟨first, next⟩, hfirst, h⟩ := bind_eq_ok.1 h
  obtain ⟨others, hothers, h⟩ := bind_eq_ok.1 h
  obtain ⟨front, back, rfl, rfl, rfl⟩ := List.map_eq_append_iff.1 (Except.ok.inj h).symm
  exact ⟨next, front, back, rfl, hfirst, hothers⟩

/-! ## The messages of a track -/

theorem withDeltas_eq (last : Int) (stamps : List Stamp) :
    withDeltas (.int last) (stamps.map Stamp.placed) = .ok (deltas last stamps) := by
  induction stamps generalizing last with
  | nil => rfl
  | cons s stamps ih =>
    rw [List.map_cons, withDeltas]
    show (withDeltas (.int s.tick) _ >>= fun others => pure (_ :: others)) = _
    rw [ih]
    rfl

/-- the timeline of a track has its meta messages at the start, and behind them what is placed of its events -/
theorem timeline_of_placeEvents {t : Track} {stamps : List Stamp}
    (h : placeEvents 0 t.events = .ok (stamps.map Stamp.placed)) :
    t.timeline = .ok ((t.metas.map (Stamp.mk 0) ++ stamps).map Stamp.placed) := by
  refine bind_eq_ok.2 ⟨_, h, ?_⟩
  rw [List.map_append, List.map_map]
  rfl

/-- the messages of a track are those placed in it, in order, each with the ticks since the one before -/
theorem messages_of_timeline {t : Track} {stamps : List Stamp} (h : t.timeline = .ok (stamps.map Stamp.placed)) :
    t.messages = .ok (deltas 0 (stamps.mergeSort Stamp.le) ++ [⟨0, .endOfTrack⟩]) := by
  have hsort : (stamps.map Stamp.placed).mergeSort Placed.le = (stamps.mergeSort Stamp.le).map Stamp.placed :=
    (List.map_mergeSort fun a _ b _ => (Stamp.le_placed a b).symm).symm
  have htimed : withDeltas 0 ((stamps.map Stamp.placed).mergeSort Placed.le) =
      .ok (deltas 0 (stamps.mergeSort Stamp.le)) := by
    rw [hsort]
    exact withDeltas_eq 0 _
  exact bind_eq_ok.2 ⟨_, h, bind_eq_ok.2 ⟨_, mapError_eq_ok.2 htimed, rfl⟩⟩

/-- **The messages of a track.** Of playable events they are the stamps of the track in order, each with the ticks since
the one before. -/
theorem messages_eq (metas : List Message) {events : List WholeEvent} (h : ∀ e ∈ events, e.Playable) :
    Track.messages ⟨metas, events.map WholeEvent.toEvent⟩ =
      .ok (deltas 0 ((stampsOf metas events).mergeSort Stamp.le) ++ [⟨0, .endOfTrack⟩]) := by
  refine messages_of_timeline (bind_eq_ok.2 ⟨_, placeEvents_eq h 0, ?_⟩)
  rw [stampsOf, List.map_append, List.map_map, List.map_map]
  rfl

theorem message_of_mem_deltas {last : Int} {stamps : List Stamp} {timed : Timed Message}
    (h : timed ∈ deltas last stamps) : ∃ s ∈ stamps, timed.message = s.message := by
  induction stamps generalizing last with
  | nil => cases h
  | cons s stamps ih =>
    rcases List.mem_cons.1 h with rfl | h
    · exact ⟨s, List.mem_cons_self, rfl⟩
    · obtain ⟨s', hs', hmessage⟩ := ih h
      exact ⟨s', List.mem_cons_of_mem _ hs', hmessage⟩

theorem length_deltas (last : Int) (stamps : List Stamp) : (deltas last stamps).length = stamps.length := by
  induction stamps generalizing last with
  | nil => rfl
  | cons s stamps ih => rw [deltas, List.length_cons, List.length_cons, ih]

/-- between two messages there are fewer ticks than before the end -/
theorem delta_lt_of_mem_deltas {last bound : Int} (hlast : 0 ≤ last) {stamps : List Stamp}
    (hticks : ∀ s ∈ stamps, 0 ≤ s.tick ∧ s.tick < bound) {timed : Timed Message} (h : timed ∈ deltas last stamps)
    {ticks : Nat} (hdelta : timed.delta = .int ticks) : (ticks : Int) < bound := by
  induction stamps generalizing last with
  | nil => cases h
  | cons s stamps ih =>
    have hs := hticks s List.mem_cons_self
    rcases List.mem_cons.1 h with rfl | h
    · have := Number.int.inj hdelta
      omega
    · exact ih hs.1 (fun s hs => hticks s (List.mem_cons_of_mem _ hs)) h

/-- in order, no message comes before the one before it -/
theorem delta_of_mem_deltas {last : Int} {stamps : List Stamp} (hsorted : stamps.Pairwise (fun a b => a.le b))
    (hlast : ∀ s ∈ stamps, last ≤ s.tick) {timed : Timed Message} (h : timed ∈ deltas last stamps) :
    ∃ ticks : Nat, timed.delta = .int ticks := by
  induction stamps generalizing last with
  | nil => cases h
  | cons s stamps ih =>
    obtain ⟨hfirst, hrest⟩ := List.pairwise_cons.1 hsorted
    rcases List.mem_cons.1 h with rfl | h
    · have := hlast s List.mem_cons_self
      exact ⟨(s.tick - last).toNat, by rw [Int.toNat_of_nonneg (by omega)]⟩
    · refine ih hrest (fun s' hs' => ?_) h
      have := hfirst s' hs'
      simp only [Stamp.le, Bool.or_eq_true, Bool.and_eq_true, decide_eq_true_eq, beq_iff_eq] at this
      omega

theorem val_wrapped {n : Nat} {value : Int} (h : 0 ≤ value ∧ value ≤ n) :
    ((wrapped n value).val : Int) = value := by
  rw [wrapped, Fin.val_ofNat, Nat.mod_eq_of_lt (by omega), Int.toNat_of_nonneg h.1]

theorem heard?_cons {last : Int} {s : Sounding} (h : s.Fits) (rest : List (Timed Message)) :
    heard? last (⟨.int (s.tick - last), s.message⟩ :: rest) = (heard? s.tick rest).map (s :: ·) := by
  obtain ⟨tick, starts, channel, note, velocity⟩ := s
  obtain ⟨hchannel, hnote, hvelocity⟩ := h
  have htick : last + (tick - last) = tick := by omega
  have hheld : (⟨last + (tick - last), starts, (wrapped 15 channel).val, (wrapped 127 note).val,
      (wrapped 127 velocity).val⟩ : Sounding) = ⟨tick, starts, channel, note, velocity⟩ := by
    rw [htick, val_wrapped hchannel, val_wrapped hnote, val_wrapped hvelocity]
  cases starts with
  | false =>
    show (heard? (last + (tick - last)) rest).map (_ :: ·) = _
    rw [hheld, htick]
  | true =>
    show (heard? (last + (tick - last)) rest).map (_ :: ·) = _
    rw [hheld, htick]

/-- what is heard of the messages of soundings is the soundings -/
theorem heard?_deltas {last : Int} {soundings : List Sounding} (h : ∀ s ∈ soundings, s.Fits) :
    heard? last (deltas last (soundings.map Sounding.stamp)) = some soundings := by
  induction soundings generalizing last with
  | nil => rfl
  | cons s soundings ih =>
    rw [List.map_cons, deltas]
    show heard? last (⟨.int (s.tick - last), s.message⟩ :: deltas s.tick (soundings.map Sounding.stamp)) = _
    rw [heard?_cons (h s List.mem_cons_self), ih fun s hs => h s (List.mem_cons_of_mem _ hs), Option.map_some]

/-- the meta messages of a track stand in front of everything that does not come before the start -/
theorem mergeSort_metas {metas : List Message} {stamps : List Stamp} (hmetas : ∀ m ∈ metas, m.rank = 0)
    (hticks : ∀ s ∈ stamps, 0 ≤ s.tick) :
    (metas.map (Stamp.mk 0) ++ stamps).mergeSort Stamp.le = metas.map (Stamp.mk 0) ++ stamps.mergeSort Stamp.le := by
  have hfront (m : Message) (hm : m ∈ metas) (s : Stamp) (hs : 0 ≤ s.tick) : Stamp.le ⟨0, m⟩ s := by
    simp only [Stamp.le, hmetas m hm, Bool.or_eq_true, Bool.and_eq_true, decide_eq_true_eq, beq_iff_eq]
    omega
  refine mergeSort_append_of_le Stamp.le_trans Stamp.le_total ?_ fun a ha b hb => ?_
  · rw [List.pairwise_map]
    exact List.pairwise_of_forall_mem_list fun a ha b _ => hfront a ha _ le_rfl
  · obtain ⟨m, hm, rfl⟩ := List.mem_map.1 ha
    exact hfront m hm _ (hticks b hb)

theorem mergeSort_stampsOf {metas : List Message} {events : List WholeEvent} (hmetas : ∀ m ∈ metas, m.rank = 0)
    (hticks : ∀ s ∈ soundingsFrom 0 events, 0 ≤ s.tick) :
    (stampsOf metas events).mergeSort Stamp.le =
      metas.map (⟨0, ·⟩) ++ ((soundingsFrom 0 events).mergeSort Sounding.le).map Sounding.stamp := by
  rw [stampsOf, mergeSort_metas hmetas, List.map_mergeSort fun a _ b _ => (Sounding.le_stamp a b).symm]
  intro s hs
  obtain ⟨sounding, hsounding, rfl⟩ := List.mem_map.1 hs
  exact hticks sounding hsounding

/-- the messages of stamps at the tick of the last message come at once -/
theorem deltas_append (tick : Int) (metas : List Message) (stamps : List Stamp) :
    deltas tick (metas.map (⟨tick, ·⟩) ++ stamps) = metas.map (⟨0, ·⟩) ++ deltas tick stamps := by
  induction metas with
  | nil => rfl
  | cons m metas ih =>
    rw [List.map_cons, List.cons_append, deltas, ih, Int.sub_self]
    rfl

/-- messages can hold everything that is heard of a playable event -/
theorem WholeEvent.fits_of_mem_soundings {e : WholeEvent} (h : e.Playable) {start : Int} {s : Sounding}
    (hs : s ∈ e.soundings start) : s.Fits := by
  have hfits (pitch : Int) (hpitch : pitch ∈ e.pitches) (tick : Int) (starts : Bool) :
      Sounding.Fits ⟨tick, starts, e.channel, pitch, e.loudness⟩ :=
    ⟨h.channel (List.ne_nil_of_mem hpitch), h.pitches pitch hpitch, h.loudness (List.ne_nil_of_mem hpitch)⟩
  rcases List.mem_append.1 hs with hs | hs
  · obtain ⟨pitch, hpitch, rfl⟩ := List.mem_map.1 hs
    exact hfits pitch hpitch _ _
  · obtain ⟨pitch, hpitch, rfl⟩ := List.mem_map.1 hs
    exact hfits pitch hpitch _ _

theorem fits_of_mem_soundingsFrom {events : List WholeEvent} (h : ∀ e ∈ events, e.Playable) {cursor : Int}
    {s : Sounding} (hs : s ∈ soundingsFrom cursor events) : s.Fits := by
  induction events generalizing cursor with
  | nil => cases hs
  | cons e events ih =>
    rcases List.mem_append.1 hs with hs | hs
    · exact e.fits_of_mem_soundings (h e List.mem_cons_self) hs
    · exact ih (fun e he => h e (List.mem_cons_of_mem _ he)) hs

end Drumline
