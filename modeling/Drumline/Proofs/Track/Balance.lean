/-
No note without an end, and no end without a note. Ends sort before starts on the same tick, so this rests on events
that end after they start (`EndsLater`): of a whole number of ticks, at least one (`endsLater_of_whole`), or of any
kind as long as adding the duration is not lost to rounding.

Messages are `Balanced` if for every note of every channel no front of them has more ends than starts, and all of them
have as many ends as starts. Placed messages are `Paired` if they have as many ends as starts, and up to any tick at
most as many ends as there are starts before it. Events that end later are placed so (`paired_of_placeEvents`), and
putting paired messages in order balances them (`balanced_mergeSort`): up to an end, every other end is at its tick at
the latest, and every start before that tick has come.
-/
import Drumline.Proofs.Except
import Drumline.Proofs.Number.Order
import Drumline.Track.Timeline

namespace Drumline

open Midi

/-! ## Model -/

namespace Midi.Message

/-- whether a message starts a note -/
def starts (channel : Channel) (note : DataByte) : Message → Bool
  | .noteOn c n _ => c == channel && n == note
  | _ => false

/-- whether a message ends a note -/
def stops (channel : Channel) (note : DataByte) : Message → Bool
  | .noteOff c n _ => c == channel && n == note
  | _ => false

end Midi.Message

/-- whether every end of a note has a start before it, and every start has an end -/
structure Balanced (messages : List Message) : Prop where
  covered : ∀ front, front <+: messages → ∀ channel note,
    front.countP (Message.stops channel note) ≤ front.countP (Message.starts channel note)
  settled : ∀ channel note,
    messages.countP (Message.stops channel note) = messages.countP (Message.starts channel note)

/-- whether every event ends after it starts, with the cursor before the first of them -/
def EndsLater (cursor : Number) : List NoteEvent → Prop
  | [] => True
  | event :: events => ∀ start stop, event.start cursor = .ok start → start.add event.duration = .ok stop →
    Number.lt start stop = true ∧ EndsLater (if event.tick.isNone then stop else cursor) events

namespace NoteEvent

/-- whether an event has whole ticks only, and lasts at least one -/
structure IsWhole (e : NoteEvent) : Prop where
  duration : ∃ ticks : Int, 1 ≤ ticks ∧ e.duration = .int ticks
  wait : ∃ ticks : Int, e.wait = .int ticks
  tick : ∀ tick, e.tick = some tick → ∃ ticks : Int, tick = .int ticks

end NoteEvent

namespace Placed

def starts (channel : Channel) (note : DataByte) (p : Placed) : Bool := p.message.starts channel note

def stops (channel : Channel) (note : DataByte) (p : Placed) : Bool := p.message.stops channel note

/-- where a placed message stands among others -/
def key (p : Placed) : (Int ×ₗ Rat) ×ₗ Nat := toLex (p.tick.standing, p.message.rank)

end Placed

/-- whether all messages are at ticks that have an order, with as many ends of a note as starts, and up to a tick at
most as many ends as starts before it -/
structure Paired (placed : List Placed) : Prop where
  ordered : ∀ p ∈ placed, p.tick.IsOrdered
  even : ∀ channel note, placed.countP (Placed.stops channel note) = placed.countP (Placed.starts channel note)
  early : ∀ channel note (limit : Int ×ₗ Rat),
    placed.countP (fun p => p.stops channel note && p.tick.standing ≤ limit) ≤
      placed.countP (fun p => p.starts channel note && p.tick.standing < limit)

namespace Midi.Message

variable {m : Message} {channel : Channel} {note : DataByte}

theorem starts_eq_false (h : m.rank = 0) : m.starts channel note = false := by
  cases m with
  | noteOn => cases h
  | _ => rfl

theorem stops_eq_false (h : m.rank = 0) : m.stops channel note = false := by
  cases m with
  | noteOff => cases h
  | _ => rfl

end Midi.Message

/-! ## Placing events -/

theorem paired_nil : Paired [] := ⟨by simp, by simp, by simp⟩

theorem Paired.append {placed others : List Placed} (h : Paired placed) (h' : Paired others) :
    Paired (placed ++ others) where
  ordered p hp := by
    rcases List.mem_append.1 hp with hp | hp
    · exact h.ordered p hp
    · exact h'.ordered p hp
  even channel note := by
    rw [List.countP_append, List.countP_append, h.even, h'.even]
  early channel note limit := by
    rw [List.countP_append, List.countP_append]
    exact Nat.add_le_add (h.early channel note limit) (h'.early channel note limit)

theorem paired_of_silent {placed : List Placed} (h : ∀ p ∈ placed, p.tick.IsOrdered ∧ p.message.rank = 0) :
    Paired placed := by
  have hstarts (channel : Channel) (note : DataByte) (p : Placed) (hp : p ∈ placed) : p.starts channel note = false :=
    Message.starts_eq_false (h p hp).2
  have hstops (channel : Channel) (note : DataByte) (p : Placed) (hp : p ∈ placed) : p.stops channel note = false :=
    Message.stops_eq_false (h p hp).2
  refine ⟨fun p hp => (h p hp).1, fun channel note => ?_, fun channel note limit => ?_⟩
  · rw [List.countP_eq_zero.2, List.countP_eq_zero.2]
    · intro p hp
      simp [hstarts channel note p hp]
    · intro p hp
      simp [hstops channel note p hp]
  · rw [List.countP_eq_zero.2]
    · exact Nat.zero_le _
    · intro p hp
      simp [hstops channel note p hp]

namespace NoteEvent

/-- what the messages of a note hold -/
def values (event : NoteEvent) (velocity : Int) (pitch : Number) :
    Except FieldError (Channel × DataByte × DataByte) := do
  let channel ← Midi.channel event.channel
  let note ← dataByte pitch
  let velocity ← dataByte (.int velocity)
  return (channel, note, velocity)

/-- the messages of the notes of an event hold the same values, whichever messages they are -/
theorem notes_eq_map (event : NoteEvent) (make : Channel → DataByte → DataByte → Message) (velocity : Int) :
    event.notes make velocity =
      (event.pitches.mapM (event.values velocity)).map (List.map fun v => make v.1 v.2.1 v.2.2) := by
  have hnote (pitch : Number) : event.note make velocity pitch =
      (event.values velocity pitch).map fun v => make v.1 v.2.1 v.2.2 := by
    unfold note values
    cases Midi.channel event.channel with
    | error e => rfl
    | ok channel =>
      cases dataByte pitch with
      | error e => rfl
      | ok note =>
        cases dataByte (.int velocity) with
        | error e => rfl
        | ok velocity => rfl
  unfold notes
  rw [funext hnote, mapM_map]

theorem values_eq_ok {event : NoteEvent} {velocity : Int} {pitch : Number} {v : Channel × DataByte × DataByte}
    (h : event.values velocity pitch = .ok v) : Midi.channel event.channel = .ok v.1 ∧ dataByte pitch = .ok v.2.1 := by
  obtain ⟨channel, hchannel, h⟩ := bind_eq_ok.1 h
  obtain ⟨note, hnote, h⟩ := bind_eq_ok.1 h
  obtain ⟨velocity, -, h⟩ := bind_eq_ok.1 h
  cases h
  exact ⟨hchannel, hnote⟩

/-- an event is placed as the starts and the ends of the same notes -/
theorem place_eq_ok {event : NoteEvent} {cursor next : Number} {placed : List Placed}
    (h : event.place cursor = .ok (placed, next)) :
    ∃ start stop velocity, ∃ values : List (Channel × DataByte × DataByte), event.start cursor = .ok start ∧
      start.add event.duration = .ok stop ∧ event.pitches.mapM (event.values velocity) = .ok values ∧
      next = (if event.tick.isNone then stop else cursor) ∧
      placed = values.map (fun v => ⟨start, .noteOn v.1 v.2.1 v.2.2⟩) ++
        values.map (fun v => ⟨stop, .noteOff v.1 v.2.1 v.2.2⟩) := by
  obtain ⟨start, hstart, h⟩ := bind_eq_ok.1 h
  obtain ⟨stop, hstop, h⟩ := bind_eq_ok.1 h
  obtain ⟨velocity, -, h⟩ := bind_eq_ok.1 h
  obtain ⟨starts, hstarts, h⟩ := bind_eq_ok.1 h
  obtain ⟨ends, hends, h⟩ := bind_eq_ok.1 h
  cases h
  have hstarts := mapError_eq_ok.1 hstarts
  have hends := mapError_eq_ok.1 hends
  rw [notes_eq_map] at hstarts hends
  obtain ⟨values, hvalues, rfl⟩ := map_eq_ok.1 hstarts
  obtain ⟨values', hvalues', rfl⟩ := map_eq_ok.1 hends
  obtain rfl := Except.ok.inj (hvalues.symm.trans hvalues')
  refine ⟨start, stop, velocity, values, mapError_eq_ok.1 hstart, mapError_eq_ok.1 hstop, hvalues, rfl, ?_⟩
  rw [List.map_map, List.map_map]
  rfl

/-- the starts and the ends of the same notes are paired if the ends are later -/
theorem paired_of_lt {start stop : Number} (hlt : Number.lt start stop = true)
    (values : List (Channel × DataByte × DataByte)) :
    Paired (values.map (fun v => ⟨start, .noteOn v.1 v.2.1 v.2.2⟩) ++
      values.map (fun v => ⟨stop, .noteOff v.1 v.2.1 v.2.2⟩)) := by
  obtain ⟨hordered, hordered'⟩ := Number.isOrdered_of_lt hlt
  rw [Number.lt_eq hordered hordered', decide_eq_true_eq] at hlt
  refine ⟨fun p hp => ?_, fun channel note => ?_, fun channel note limit => ?_⟩
  · rcases List.mem_append.1 hp with hp | hp
    · obtain ⟨v, -, rfl⟩ := List.mem_map.1 hp
      exact hordered
    · obtain ⟨v, -, rfl⟩ := List.mem_map.1 hp
      exact hordered'
  · simp [List.countP_map, Function.comp_def, Placed.starts, Placed.stops, Message.starts, Message.stops]
  · by_cases hlimit : stop.standing ≤ limit
    · simp [List.countP_map, Function.comp_def, Placed.starts, Placed.stops, Message.starts, Message.stops, hlimit,
        hlt.trans_le hlimit]
    · simp [List.countP_map, Function.comp_def, Placed.starts, Placed.stops, Message.starts, Message.stops, hlimit]

end NoteEvent

/-- the messages of events that end later are paired -/
theorem paired_of_placeEvents {cursor : Number} {events : List NoteEvent} (hlater : EndsLater cursor events)
    {placed : List Placed} (h : placeEvents cursor events = .ok placed) : Paired placed := by
  induction events generalizing cursor placed with
  | nil =>
    cases h
    exact paired_nil
  | cons event events ih =>
    obtain ⟨⟨first, next⟩, hfirst, h⟩ := bind_eq_ok.1 h
    obtain ⟨others, hothers, h⟩ := bind_eq_ok.1 h
    cases h
    obtain ⟨start, stop, -, values, hstart, hstop, -, rfl, rfl⟩ := NoteEvent.place_eq_ok hfirst
    obtain ⟨hlt, hrest⟩ := hlater start stop hstart hstop
    exact (NoteEvent.paired_of_lt hlt values).append (ih hrest hothers)

/-- what is placed of events are notes -/
theorem rank_ne_zero_of_mem_placeEvents {cursor : Number} {events : List NoteEvent} {placed : List Placed}
    (h : placeEvents cursor events = .ok placed) {p : Placed} (hp : p ∈ placed) : p.message.rank ≠ 0 := by
  induction events generalizing cursor placed with
  | nil =>
    cases h
    exact (List.not_mem_nil hp).elim
  | cons event events ih =>
    obtain ⟨⟨first, next⟩, hfirst, h⟩ := bind_eq_ok.1 h
    obtain ⟨others, hothers, h⟩ := bind_eq_ok.1 h
    cases h
    obtain ⟨start, stop, -, values, -, -, -, -, rfl⟩ := NoteEvent.place_eq_ok hfirst
    rcases List.mem_append.1 hp with hp | hp
    · rcases List.mem_append.1 hp with hp | hp
      · obtain ⟨v, -, rfl⟩ := List.mem_map.1 hp
        exact Nat.succ_ne_zero 1
      · obtain ⟨v, -, rfl⟩ := List.mem_map.1 hp
        exact Nat.succ_ne_zero 0
    · exact ih hothers hp

theorem endsLater_of_whole {events : List NoteEvent} (h : ∀ e ∈ events, e.IsWhole) (cursor : Int) :
    EndsLater (.int cursor) events := by
  induction events generalizing cursor with
  | nil => trivial
  | cons event events ih =>
    intro start stop hstart hstop
    have hwhole := h event List.mem_cons_self
    obtain ⟨duration, hpos, hduration⟩ := hwhole.duration
    obtain ⟨wait, hwait⟩ := hwhole.wait
    obtain ⟨tick, rfl⟩ : ∃ tick : Int, start = .int tick := by
      unfold NoteEvent.start at hstart
      cases htick : event.tick with
      | none =>
        rw [htick, hwait] at hstart
        exact ⟨cursor + wait, (Except.ok.inj hstart).symm⟩
      | some tick =>
        rw [htick] at hstart
        obtain ⟨ticks, rfl⟩ := hwhole.tick tick htick
        exact ⟨ticks, (Except.ok.inj hstart).symm⟩
    rw [hduration] at hstop
    obtain rfl := Except.ok.inj hstop
    refine ⟨?_, ?_⟩
    · rw [Number.lt_int_int, decide_eq_true_eq]
      omega
    · have hrest := ih fun e he => h e (List.mem_cons_of_mem _ he)
      split
      · exact hrest (tick + duration)
      · exact hrest cursor

/-! ## Putting messages in order -/

theorem Placed.le_eq {a b : Placed} (ha : a.tick.IsOrdered) (hb : b.tick.IsOrdered) :
    a.le b = decide (a.key ≤ b.key) := by
  unfold Placed.le Placed.key
  rw [Number.lt_eq ha hb, Number.eqv_eq ha hb, Bool.eq_iff_iff, decide_eq_true_eq, Prod.Lex.toLex_le_toLex]
  simp

/-- messages with an order are put in it -/
theorem pairwise_key_mergeSort {placed : List Placed} (h : ∀ p ∈ placed, p.tick.IsOrdered) :
    (placed.mergeSort Placed.le).Pairwise fun a b => a.key ≤ b.key := by
  have hkeys : (placed.mergeSort Placed.le).map id = (placed.map id).mergeSort fun a b => decide (a.key ≤ b.key) :=
    List.map_mergeSort fun a ha b hb => Placed.le_eq (h a ha) (h b hb)
  rw [List.map_id, List.map_id] at hkeys
  rw [hkeys]
  have hsorted : (placed.mergeSort fun a b => decide (a.key ≤ b.key)).Pairwise fun a b =>
      decide (a.key ≤ b.key) = true := by
    refine List.pairwise_mergeSort (fun a b c hab hbc => ?_) (fun a b => ?_) placed
    · simp only [decide_eq_true_eq] at hab hbc ⊢
      exact hab.trans hbc
    · simp only [Bool.or_eq_true, decide_eq_true_eq]
      exact le_total a.key b.key
  exact hsorted.imp of_decide_eq_true

theorem Placed.standing_le {a b : Placed} (h : a.key ≤ b.key) : a.tick.standing ≤ b.tick.standing :=
  Prod.Lex.monotone_fst _ _ h

/-- up to an end there are at most as many ends of a note as starts before it -/
theorem countP_stops_le {placed front back : List Placed} {last : Placed} (h : Paired placed)
    (hsort : placed.mergeSort Placed.le = front ++ [last] ++ back) {channel : Channel} {note : DataByte} :
    (front ++ [last]).countP (Placed.stops channel note) ≤ (front ++ [last]).countP (Placed.starts channel note) := by
  have hperm : placed.Perm (front ++ [last] ++ back) := hsort ▸ (List.mergeSort_perm placed Placed.le).symm
  have hsorted := pairwise_key_mergeSort h.ordered
  rw [hsort, List.pairwise_append, List.pairwise_append] at hsorted
  obtain ⟨⟨-, -, hfront⟩, -, hback⟩ := hsorted
  have hsooner : ∀ p ∈ front ++ [last], p.tick.standing ≤ last.tick.standing := by
    intro p hp
    rcases List.mem_append.1 hp with hp | hp
    · exact Placed.standing_le (hfront p hp last (List.mem_singleton_self last))
    · rw [List.mem_singleton.1 hp]
  have hlater : ∀ p ∈ back, ¬p.tick.standing < last.tick.standing := by
    intro p hp
    exact not_lt.2 (Placed.standing_le (hback last (List.mem_append_right _ (List.mem_singleton_self last)) p hp))
  calc (front ++ [last]).countP (Placed.stops channel note)
      = (front ++ [last]).countP (fun p => p.stops channel note && p.tick.standing ≤ last.tick.standing) := by
        refine List.countP_congr fun p hp => ?_
        simp [hsooner p hp]
    _ ≤ (front ++ [last] ++ back).countP (fun p => p.stops channel note && p.tick.standing ≤ last.tick.standing) :=
        (List.sublist_append_left _ back).countP_le
    _ = placed.countP (fun p => p.stops channel note && p.tick.standing ≤ last.tick.standing) :=
        (hperm.countP_eq _).symm
    _ ≤ placed.countP (fun p => p.starts channel note && p.tick.standing < last.tick.standing) :=
        h.early channel note _
    _ = (front ++ [last] ++ back).countP (fun p => p.starts channel note && p.tick.standing < last.tick.standing) :=
        hperm.countP_eq _
    _ = (front ++ [last]).countP (fun p => p.starts channel note && p.tick.standing < last.tick.standing) := by
        rw [List.countP_append, Nat.add_eq_left, List.countP_eq_zero]
        intro p hp
        simp [hlater p hp]
    _ ≤ (front ++ [last]).countP (Placed.starts channel note) := by
        refine List.countP_mono_left fun p _ hp => ?_
        exact (Bool.and_eq_true_iff.1 hp).1

/-- **Order balances.** Paired messages are balanced when they are in order. -/
theorem balanced_mergeSort {placed : List Placed} (h : Paired placed) :
    Balanced ((placed.mergeSort Placed.le).map (·.message)) where
  covered := by
    have hfront (channel : Channel) (note : DataByte) (front back : List Placed)
        (hsort : placed.mergeSort Placed.le = front ++ back) :
        front.countP (Placed.stops channel note) ≤ front.countP (Placed.starts channel note) := by
      induction front using List.reverseRecOn generalizing back with
      | nil => exact le_rfl
      | append_singleton front last ih =>
        -- behind an end nothing before it matters; anything else adds no end
        by_cases hstop : last.stops channel note = true
        · exact countP_stops_le h hsort
        · have hbefore := ih (last :: back) (by rw [hsort, List.append_assoc, List.singleton_append])
          rw [List.countP_append, List.countP_append, List.countP_singleton, if_neg hstop]
          exact hbefore.trans (Nat.le_add_right _ _)
    rintro front ⟨back, hsort⟩ channel note
    obtain ⟨front', back', hplaced, rfl, rfl⟩ := List.map_eq_append_iff.1 hsort.symm
    rw [List.countP_map, List.countP_map]
    exact hfront channel note front' back' hplaced
  settled channel note := by
    have hperm := List.mergeSort_perm placed Placed.le
    rw [List.countP_map, List.countP_map]
    exact (hperm.countP_eq _).trans ((h.even channel note).trans (hperm.countP_eq _).symm)

/-! ## The messages of a track -/

theorem map_message_withDeltas {last : Number} {placed : List Placed} {timed : List (Timed Message)}
    (h : withDeltas last placed = .ok timed) : timed.map (·.message) = placed.map (·.message) := by
  induction placed generalizing last timed with
  | nil =>
    cases h
    rfl
  | cons p placed ih =>
    obtain ⟨delta, -, h⟩ := bind_eq_ok.1 h
    obtain ⟨others, hothers, h⟩ := bind_eq_ok.1 h
    cases h
    rw [List.map_cons, List.map_cons, ih hothers]

theorem Balanced.append_silent {messages : List Message} (h : Balanced messages) {m : Message} (hm : m.rank = 0) :
    Balanced (messages ++ [m]) where
  covered := by
    rintro front hfront channel note
    rcases List.prefix_concat_iff.1 hfront with rfl | hfront
    · rw [List.countP_append, List.countP_append, List.countP_singleton, Message.stops_eq_false hm]
      exact (h.covered messages List.prefix_rfl channel note).trans (Nat.le_add_right _ _)
    · exact h.covered front hfront channel note
  settled channel note := by
    rw [List.countP_append, List.countP_append, List.countP_singleton, List.countP_singleton,
      Message.stops_eq_false hm, Message.starts_eq_false hm, h.settled]

/-- the messages of a track: meta messages, notes, and the end -/
theorem message_of_mem_messages {t : Track} {timed : List (Timed Message)} (h : t.messages = .ok timed)
    {m : Timed Message} (hm : m ∈ timed) : m.message ∈ t.metas ∨ m.message.rank ≠ 0 ∨ m.message = .endOfTrack := by
  obtain ⟨placed, hplaced, h⟩ := bind_eq_ok.1 h
  obtain ⟨body, hbody, h⟩ := bind_eq_ok.1 h
  cases h
  obtain ⟨notes, hnotes, hplaced⟩ := bind_eq_ok.1 hplaced
  cases hplaced
  rcases List.mem_append.1 hm with hm | hm
  · have hmessage := List.mem_map_of_mem (f := (·.message)) hm
    rw [map_message_withDeltas (mapError_eq_ok.1 hbody)] at hmessage
    obtain ⟨p, hp, heq⟩ := List.mem_map.1 hmessage
    rcases List.mem_append.1 (List.mem_mergeSort.1 hp) with hp | hp
    · obtain ⟨m', hm', rfl⟩ := List.mem_map.1 hp
      exact .inl (heq ▸ hm')
    · exact .inr (.inl (heq ▸ rank_ne_zero_of_mem_placeEvents hnotes hp))
  · rw [List.mem_singleton.1 hm]
    exact .inr (.inr rfl)

/-- a track of events that end later has balanced messages -/
theorem balanced_of_messages {t : Track} (hmetas : ∀ m ∈ t.metas, m.rank = 0) (hlater : EndsLater 0 t.events)
    {timed : List (Timed Message)} (h : t.messages = .ok timed) : Balanced (timed.map (·.message)) := by
  obtain ⟨placed, hplaced, h⟩ := bind_eq_ok.1 h
  obtain ⟨body, hbody, h⟩ := bind_eq_ok.1 h
  cases h
  obtain ⟨notes, hnotes, hplaced⟩ := bind_eq_ok.1 hplaced
  cases hplaced
  have hsilent : Paired (t.metas.map (Placed.mk 0)) := by
    refine paired_of_silent fun p hp => ?_
    obtain ⟨m, hm, rfl⟩ := List.mem_map.1 hp
    exact ⟨Number.isOrdered_int 0, hmetas m hm⟩
  have hbalanced := balanced_mergeSort (hsilent.append (paired_of_placeEvents hlater hnotes))
  rw [← map_message_withDeltas (mapError_eq_ok.1 hbody)] at hbalanced
  rw [List.map_append]
  exact hbalanced.append_silent rfl

end Drumline
