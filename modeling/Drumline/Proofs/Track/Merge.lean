/-
How a track merges its two kinds of events: those that follow one another, each some ticks after the one before, and
those that stand at a tick of their own.

A track of whole numbers has messages only if messages can hold all of its notes (`playable_of_messages`). Its messages
are then the meta messages at the start and what is heard of the events, each event placed behind those before it
(`soundingsOf`), in the order of `Stamp.Before`: the deltas add up to the ticks again (`absolute?_deltas`), and the sort
keeps what is equal in the order in which it was added (`exists_order`).

Events with a tick leave the cursor alone, so leaving some of them out only leaves out what is heard of them
(`soundingsFrom_sublist`, `soundingsFrom_perm`), and that stays so when both are sorted (`mergeSort_sublist`).

Main result: `messages_merged`.
-/
import Drumline.Proofs.Track.Balance
import Drumline.Proofs.Track.Placement

namespace Drumline

open Midi

/-! ## Model -/

namespace WholeEvent

/-- the ticks that the events without a tick of their own take up together, waits included -/
def span (events : List WholeEvent) : Int := ((events.filter (·.tick.isNone)).map fun e => e.wait + e.duration).sum

/-- where an event starts behind others: at its own tick, or else its wait after all of those that have none -/
def startAfter (e : WholeEvent) (earlier : List WholeEvent) : Int := e.tick.getD (span earlier + e.wait)

end WholeEvent

/-- what is heard of events, each of them placed behind those before it -/
def soundingsOf (events : List WholeEvent) : List Sounding :=
  (events.inits.zip events).flatMap fun (earlier, e) => e.soundings (e.startAfter earlier)

/-- messages at the running sum of their deltas; none if a delta is not whole -/
def absolute? (now : Int) : List (Timed Message) → Option (List Stamp)
  | [] => some []
  | ⟨.int delta, message⟩ :: rest => (absolute? (now + delta) rest).map (⟨now + delta, message⟩ :: ·)
  | ⟨.double _, _⟩ :: _ => none

/-- the order of messages that are numbered as they were added: by tick, on the same tick by rank, and then as added -/
def Stamp.Before (a b : Stamp × Nat) : Prop :=
  a.1.tick < b.1.tick ∨ (a.1.tick = b.1.tick ∧
    (a.1.message.rank < b.1.message.rank ∨ (a.1.message.rank = b.1.message.rank ∧ a.2 < b.2)))

/-- events of which some are marked -/
abbrev MarkedEvents := List (WholeEvent × Bool)

namespace MarkedEvents

def all (events : MarkedEvents) : List WholeEvent := events.map Prod.fst

def marked (events : MarkedEvents) : List WholeEvent := (events.filter (·.2)).map Prod.fst

def unmarked (events : MarkedEvents) : List WholeEvent := (events.filter (!·.2)).map Prod.fst

end MarkedEvents

/-! ## Where events start -/

namespace WholeEvent

theorem span_append (earlier : List WholeEvent) (e : WholeEvent) :
    span (earlier ++ [e]) = e.next (span earlier) := by
  unfold span next start
  cases h : e.tick with
  | some tick => simp [h]
  | none => simp [h, add_assoc]

theorem start_span (earlier : List WholeEvent) (e : WholeEvent) : e.start (span earlier) = e.startAfter earlier := rfl

end WholeEvent

/-- a cursor that has passed the earlier events places the others behind them -/
theorem soundingsFrom_span (earlier events : List WholeEvent) :
    soundingsFrom (WholeEvent.span earlier) events =
      (events.inits.zip events).flatMap fun (front, e) => e.soundings (e.startAfter (earlier ++ front)) := by
  induction events generalizing earlier with
  | nil => rfl
  | cons e events ih =>
    have hrest := ih (earlier ++ [e])
    rw [WholeEvent.span_append] at hrest
    rw [soundingsFrom, hrest, WholeEvent.start_span, List.inits_cons, List.zip_cons_cons, List.flatMap_cons,
      List.zip_map_left, List.flatMap_map]
    simp

theorem soundingsFrom_zero (events : List WholeEvent) : soundingsFrom 0 events = soundingsOf events :=
  soundingsFrom_span [] events

/-! ## When there are messages -/

/-- a data byte is the whole number that it is made of -/
theorem eq_int_of_dataByte {n : Number} {x : DataByte} (h : dataByte n = .ok x) : n = .int (x : Int) := by
  cases n with
  | double d => cases h
  | int value =>
    have hbounds := bounds_of_dataByte h
    obtain rfl := Except.ok.inj ((dataByte_of_bounds hbounds).symm.trans h)
    rw [val_wrapped hbounds]

/-- the pitches of an event that is placed are the notes of its messages -/
theorem NoteEvent.pitches_eq_of_values {e : NoteEvent} {velocity : Int} {values : List (Channel × DataByte × DataByte)}
    (h : e.pitches.mapM (e.values velocity) = .ok values) : e.pitches = values.map fun v => .int (v.2.1 : Int) := by
  have hvalues : List.Forall₂ (fun pitch v => pitch = .int (v.2.1 : Int)) e.pitches values :=
    (mapM_eq_ok.1 h).imp fun pitch v hv => eq_int_of_dataByte (NoteEvent.values_eq_ok hv).2
  rw [← List.forall₂_eq_eq_eq, List.forall₂_map_right_iff]
  exact hvalues

theorem WholeEvent.playable_of_notes {e : WholeEvent} {data : Int}
    (hdata : Velocity.toData (.int e.velocity) = .ok data) (make : Channel → DataByte → DataByte → Message)
    (h : ∀ pitch ∈ e.pitches, ∃ message, e.toEvent.note make data (.int pitch) = .ok message) : e.Playable := by
  have hloudness := WholeEvent.loudness_eq hdata
  have hnote : ∀ pitch ∈ e.pitches, (0 ≤ pitch ∧ pitch ≤ 127) ∧ (0 ≤ e.channel ∧ e.channel ≤ 15) ∧
      (0 ≤ e.loudness ∧ e.loudness ≤ 127) := by
    intro pitch hpitch
    obtain ⟨message, hmessage⟩ := h pitch hpitch
    obtain ⟨c, hc, hmessage⟩ := bind_eq_ok.1 hmessage
    obtain ⟨n, hn, hmessage⟩ := bind_eq_ok.1 hmessage
    obtain ⟨v, hv, -⟩ := bind_eq_ok.1 hmessage
    exact ⟨bounds_of_dataByte hn, bounds_of_channel hc, hloudness ▸ bounds_of_dataByte hv⟩
  have hfirst (hne : e.pitches ≠ []) := hnote _ (List.head_mem hne)
  exact ⟨hloudness ▸ hdata, fun pitch hpitch => (hnote pitch hpitch).1, fun hne => (hfirst hne).2.1,
    fun hne => (hfirst hne).2.2⟩

theorem WholeEvent.playable_of_place {e : WholeEvent} {cursor : Number} {result : List Placed × Number}
    (h : e.toEvent.place cursor = .ok result) : e.Playable := by
  obtain ⟨start, -, h⟩ := bind_eq_ok.1 h
  obtain ⟨stop, -, h⟩ := bind_eq_ok.1 h
  obtain ⟨velocity, hvelocity, h⟩ := bind_eq_ok.1 h
  obtain ⟨starts, hstarts, -⟩ := bind_eq_ok.1 h
  refine WholeEvent.playable_of_notes (mapError_eq_ok.1 hvelocity) .noteOn fun pitch hpitch => ?_
  have hmem : Number.int pitch ∈ e.toEvent.pitches := List.mem_map_of_mem hpitch
  obtain ⟨message, -, hmessage⟩ := exists_of_mem_right (mapM_eq_ok.1 (mapError_eq_ok.1 hstarts)).flip hmem
  exact ⟨message, hmessage⟩

theorem playable_of_placeEvents {events : List WholeEvent} {cursor : Int} {placed : List Placed}
    (h : placeEvents (.int cursor) (events.map WholeEvent.toEvent) = .ok placed) : ∀ e ∈ events, e.Playable := by
  induction events generalizing cursor placed with
  | nil =>
    intro e he
    exact (List.not_mem_nil he).elim
  | cons e events ih =>
    obtain ⟨result, hplace, h⟩ := bind_eq_ok.1 h
    have hplayable := WholeEvent.playable_of_place hplace
    rw [e.place_eq hplayable cursor] at hplace
    cases hplace
    obtain ⟨others, hothers, -⟩ := bind_eq_ok.1 h
    intro e' he'
    rcases List.mem_cons.1 he' with rfl | he'
    · exact hplayable
    · exact ih hothers e' he'

/-- a track of whole numbers has messages only if its events are playable -/
theorem playable_of_messages {metas : List Message} {events : List WholeEvent} {timed : List (Timed Message)}
    (h : Track.messages ⟨metas, events.map WholeEvent.toEvent⟩ = .ok timed) : ∀ e ∈ events, e.Playable := by
  obtain ⟨placed, hplaced, -⟩ := bind_eq_ok.1 h
  obtain ⟨notes, hnotes, -⟩ := bind_eq_ok.1 hplaced
  exact playable_of_placeEvents (show placeEvents (.int 0) _ = .ok notes from hnotes)

/-! ## The order of the messages -/

/-- adding up the deltas of messages gives the ticks at which they were placed -/
theorem absolute?_deltas (last : Int) (stamps : List Stamp) : absolute? last (deltas last stamps) = some stamps := by
  induction stamps generalizing last with
  | nil => rfl
  | cons s stamps ih =>
    have htick : last + (s.tick - last) = s.tick := by omega
    rw [deltas, absolute?, htick, ih, Option.map_some]

/-- the sort of numbered messages leaves none behind one that comes after it -/
theorem Stamp.before_of_zipIdxLE {a b : Stamp × Nat} (h : List.zipIdxLE Stamp.le a b = true) (hne : a.2 ≠ b.2) :
    Stamp.Before a b := by
  simp only [List.zipIdxLE, Stamp.le, Bool.or_eq_true, Bool.and_eq_true, decide_eq_true_eq, beq_iff_eq] at h
  unfold Stamp.Before
  split_ifs at h with hab hba
  · have := of_decide_eq_true h
    omega
  · omega

/-- messages in order are the messages as they were added, numbered and put in order -/
theorem exists_order (stamps : List Stamp) : ∃ order : List (Stamp × Nat),
    order.Perm stamps.zipIdx ∧ order.Pairwise Stamp.Before ∧ order.map Prod.fst = stamps.mergeSort Stamp.le := by
  refine ⟨stamps.zipIdx.mergeSort (List.zipIdxLE Stamp.le), List.mergeSort_perm _ _, ?_, List.mergeSort_zipIdx⟩
  have hsorted := List.pairwise_mergeSort (List.zipIdxLE_trans Stamp.le_trans) (List.zipIdxLE_total Stamp.le_total)
    stamps.zipIdx
  have hnumbers : (stamps.zipIdx.mergeSort (List.zipIdxLE Stamp.le)).Pairwise (fun a b => a.2 ≠ b.2) := by
    have hnodup : (stamps.zipIdx.map Prod.snd).Nodup := by
      rw [List.zipIdx_map_snd]
      exact List.nodup_range'
    exact List.pairwise_map.1 (hnodup.perm ((List.mergeSort_perm _ _).map Prod.snd).symm)
  exact (hsorted.and hnumbers).imp fun h => Stamp.before_of_zipIdxLE h.1 h.2

/-! ## Leaving events out -/

/-- what is sorted of some members of a list stands in the same order in the sorted list -/
theorem mergeSort_sublist {α : Type} {le : α → α → Bool} (trans : ∀ a b c, le a b → le b c → le a c)
    (total : ∀ a b, le a b || le b a) {some all : List α} (h : List.Sublist some all) :
    List.Sublist (some.mergeSort le) (all.mergeSort le) := by
  -- a member stands between those that it is not at most and those that it is
  have hsplit (a : α) (l : List α) : (a :: l).mergeSort le =
      (l.mergeSort le).filter (!le a ·) ++ a :: (l.mergeSort le).filter (le a ·) := by
    obtain ⟨front, back, hcons, hrest, hfront⟩ := List.mergeSort_cons trans total a l
    have hback : ∀ b ∈ back, le a b = true := by
      have hsorted := List.pairwise_mergeSort trans total (a :: l)
      rw [hcons, List.pairwise_append] at hsorted
      exact (List.pairwise_cons.1 hsorted.2.1).1
    have hfront' : ∀ b ∈ front, le a b = false := by
      intro b hb
      simpa using hfront b hb
    rw [hcons, hrest, List.filter_append, List.filter_append, List.filter_eq_self.2 hfront,
      List.filter_eq_nil_iff.2 (by simpa using hback), List.filter_eq_nil_iff.2 (by simpa using hfront'),
      List.filter_eq_self.2 hback, List.append_nil, List.nil_append]
  induction h with
  | slnil => exact List.Sublist.refl _
  | @cons l l' a _ ih =>
    obtain ⟨front, back, hcons, hrest, -⟩ := List.mergeSort_cons trans total a l'
    rw [hrest] at ih
    rw [hcons]
    exact ih.trans ((List.Sublist.refl front).append (List.sublist_cons_self a back))
  | @cons_cons l l' a _ ih =>
    rw [hsplit a l, hsplit a l']
    exact (ih.filter _).append ((ih.filter _).cons_cons a)

namespace MarkedEvents

variable {events : MarkedEvents}

theorem all_cons (e : WholeEvent) (mark : Bool) (events : MarkedEvents) :
    all ((e, mark) :: events) = e :: events.all := rfl

theorem unmarked_cons_true (e : WholeEvent) (events : MarkedEvents) :
    unmarked ((e, true) :: events) = events.unmarked := rfl

theorem unmarked_cons_false (e : WholeEvent) (events : MarkedEvents) :
    unmarked ((e, false) :: events) = e :: events.unmarked := rfl

theorem marked_cons_true (e : WholeEvent) (events : MarkedEvents) :
    marked ((e, true) :: events) = e :: events.marked := rfl

theorem marked_cons_false (e : WholeEvent) (events : MarkedEvents) :
    marked ((e, false) :: events) = events.marked := rfl

theorem unmarked_sublist (events : MarkedEvents) : events.unmarked.Sublist events.all :=
  List.filter_sublist.map Prod.fst

/-- without some of the events that have a tick, the others sound where they did -/
theorem soundingsFrom_sublist (h : ∀ e ∈ events.marked, e.tick.isSome) (cursor : Int) :
    (soundingsFrom cursor events.unmarked).Sublist (soundingsFrom cursor events.all) := by
  induction events generalizing cursor with
  | nil => exact List.Sublist.refl _
  | cons first events ih =>
    obtain ⟨e, mark⟩ := first
    cases mark with
    | true =>
      rw [marked_cons_true] at h
      have hnext : e.next cursor = cursor := by rw [WholeEvent.next, if_pos (h e List.mem_cons_self)]
      rw [unmarked_cons_true, all_cons, soundingsFrom, hnext]
      exact List.sublist_append_of_sublist_right (ih (fun e he => h e (List.mem_cons_of_mem _ he)) cursor)
    | false =>
      rw [unmarked_cons_false, all_cons, soundingsFrom, soundingsFrom]
      exact (List.Sublist.refl _).append (ih h _)

/-- the events that are left out sound at their own ticks -/
theorem soundingsFrom_perm (h : ∀ e ∈ events.marked, e.tick.isSome) (cursor : Int) :
    (soundingsFrom cursor events.all).Perm
      (soundingsFrom cursor events.unmarked ++ events.marked.flatMap fun e => e.soundings (e.tick.getD 0)) := by
  induction events generalizing cursor with
  | nil => exact List.Perm.refl _
  | cons first events ih =>
    obtain ⟨e, mark⟩ := first
    cases mark with
    | true =>
      rw [marked_cons_true] at h ⊢
      have htick := h e List.mem_cons_self
      have hnext : e.next cursor = cursor := by rw [WholeEvent.next, if_pos htick]
      have hstart : e.start cursor = e.tick.getD 0 := by
        obtain ⟨tick, htick⟩ := Option.isSome_iff_exists.1 htick
        rw [WholeEvent.start, htick, Option.getD_some, Option.getD_some]
      rw [unmarked_cons_true, all_cons, soundingsFrom, hnext, hstart, List.flatMap_cons]
      have hrest := ih (fun e he => h e (List.mem_cons_of_mem _ he)) cursor
      exact (hrest.append_left _).trans (List.perm_append_comm_assoc _ _ _)
    | false =>
      rw [unmarked_cons_false, all_cons, soundingsFrom, soundingsFrom, marked_cons_false, List.append_assoc]
      exact (ih h _).append_left _

end MarkedEvents

/-! ## The messages of a track -/

/-- a message holds the values of a sounding that fits as they are -/
theorem Sounding.message_of_fits {s : Sounding} (h : s.Fits) : ∃ (channel : Channel) (note velocity : DataByte),
    s.message = (if s.starts then .noteOn channel note velocity else .noteOff channel note velocity) ∧
      (channel : Int) = s.channel ∧ (note : Int) = s.note ∧ (velocity : Int) = s.velocity := by
  refine ⟨wrapped 15 s.channel, wrapped 127 s.note, wrapped 127 s.velocity, ?_, val_wrapped h.channel,
    val_wrapped h.note, val_wrapped h.velocity⟩
  unfold Sounding.message
  cases s.starts with
  | true => rfl
  | false => rfl

/-- **Two kinds of events, one timeline.** A track of whole numbers has messages only if its events are playable. Up to
the end of the track these are, at the running sum of their deltas, every meta message at the start and for every note
of every event its start and its end, in order of tick, then of rank, then as added. If events with a tick are left out,
what is left is in the same order at the same ticks, and what is missing is what was heard of them. -/
theorem messages_merged {t : Track} {events : List WholeEvent} (hevents : t.events = events.map WholeEvent.toEvent)
    {timed : List (Timed Message)} (h : t.messages = .ok timed) :
    (∀ e ∈ events, e.Playable) ∧
    (∀ s ∈ soundingsOf events, ∃ (channel : Channel) (note velocity : DataByte),
      s.message = (if s.starts then .noteOn channel note velocity else .noteOff channel note velocity) ∧
        (channel : Int) = s.channel ∧ (note : Int) = s.note ∧ (velocity : Int) = s.velocity) ∧
    ∃ (body : List (Timed Message)) (stamps : List Stamp),
      timed = body ++ [⟨0, .endOfTrack⟩] ∧ absolute? 0 body = some stamps ∧
      stamps.Perm (t.metas.map (Stamp.mk 0) ++ (soundingsOf events).map Sounding.stamp) ∧
      (∃ order : List (Stamp × Nat),
        order.Perm (t.metas.map (Stamp.mk 0) ++ (soundingsOf events).map Sounding.stamp).zipIdx ∧
        order.Pairwise Stamp.Before ∧ order.map Prod.fst = stamps) ∧
      ∀ marked : MarkedEvents, marked.all = events → (∀ e ∈ marked.marked, e.tick.isSome) →
        ∃ (rest : List (Timed Message)) (others : List Stamp),
          Track.messages ⟨t.metas, marked.unmarked.map WholeEvent.toEvent⟩ = .ok (rest ++ [⟨0, .endOfTrack⟩]) ∧
          absolute? 0 rest = some others ∧ others.Sublist stamps ∧
          stamps.Perm (others ++ (marked.marked.flatMap fun e => e.soundings (e.tick.getD 0)).map Sounding.stamp) := by
  obtain ⟨metas, toEvents⟩ := t
  obtain rfl : toEvents = events.map WholeEvent.toEvent := hevents
  have hplayable := playable_of_messages h
  obtain rfl := Except.ok.inj ((messages_eq metas hplayable).symm.trans h)
  have hstamps : stampsOf metas events = metas.map (Stamp.mk 0) ++ (soundingsOf events).map Sounding.stamp := by
    rw [stampsOf, soundingsFrom_zero]
  rw [← hstamps]
  refine ⟨hplayable, fun s hs => ?_, _, _, rfl, absolute?_deltas _ _, List.mergeSort_perm _ _, exists_order _, ?_⟩
  · rw [← soundingsFrom_zero] at hs
    exact Sounding.message_of_fits (fits_of_mem_soundingsFrom hplayable hs)
  · rintro marked rfl hticks
    have hrest := messages_eq metas fun e he => hplayable e (marked.unmarked_sublist.subset he)
    refine ⟨_, _, hrest, absolute?_deltas _ _, ?_, ?_⟩
    · apply mergeSort_sublist Stamp.le_trans Stamp.le_total
      exact (List.Sublist.refl _).append ((MarkedEvents.soundingsFrom_sublist hticks 0).map _)
    · have hperm : (stampsOf metas marked.all).Perm (stampsOf metas marked.unmarked ++
          (marked.marked.flatMap fun e => e.soundings (e.tick.getD 0)).map Sounding.stamp) := by
        unfold stampsOf
        rw [List.append_assoc, ← List.map_append]
        exact ((MarkedEvents.soundingsFrom_perm hticks 0).map Sounding.stamp).append_left _
      have hsorted := List.mergeSort_perm (stampsOf metas marked.unmarked) Stamp.le
      exact (List.mergeSort_perm _ _).trans (hperm.trans (hsorted.symm.append_right _))

/-! ## A grace note between two hits -/

/-- a bass drum, a grace note at a tick of its own, and a snare after a rest -/
def fill : MarkedEvents :=
  [({ pitches := [36], duration := 32, velocity := 100 }, false),
    ({ pitches := [38], duration := 7, velocity := 60, tick := some 56 }, true),
    ({ pitches := [38], duration := 32, velocity := 80, wait := 32 }, false)]

theorem soundingsOf_fill : soundingsOf fill.all =
    [⟨0, true, 0, 36, 127⟩, ⟨32, false, 0, 36, 127⟩, ⟨56, true, 0, 38, 76⟩, ⟨63, false, 0, 38, 76⟩,
      ⟨64, true, 0, 38, 102⟩, ⟨96, false, 0, 38, 102⟩] := by
  decide +kernel

theorem playable_fill : ∀ e ∈ fill.all, e.Playable := by
  have hloud (e : WholeEvent) (k : Int) (hconverts : Velocity.toData (.int e.velocity) = .ok k) (hk : 0 ≤ k ∧ k ≤ 127)
      (hpitches : ∀ pitch ∈ e.pitches, 0 ≤ pitch ∧ pitch ≤ 127) (hchannel : e.channel = 0) : e.Playable := by
    have hloudness := WholeEvent.loudness_eq hconverts
    exact ⟨hloudness ▸ hconverts, hpitches, fun _ => by omega, fun _ => hloudness ▸ hk⟩
  intro e he
  simp only [fill, MarkedEvents.all, List.map_cons, List.map_nil, List.mem_cons, List.not_mem_nil, or_false] at he
  rcases he with rfl | rfl | rfl
  · exact hloud _ 127 (by decide +kernel) (by decide) (by decide) rfl
  · exact hloud _ 76 (by decide +kernel) (by decide) (by decide) rfl
  · exact hloud _ 102 (by decide +kernel) (by decide) (by decide) rfl

/-- the grace note stands between the hits, and without it these stay where they are -/
theorem messages_merged_fill : ∃ (timed body : List (Timed Message)) (stamps others : List Stamp),
    Track.messages ⟨[.trackName "fill"], fill.all.map WholeEvent.toEvent⟩ = .ok timed ∧
      timed = body ++ [⟨0, .endOfTrack⟩] ∧ absolute? 0 body = some stamps ∧
      stamps.Perm [⟨0, .trackName "fill"⟩, ⟨0, .noteOn 0 36 127⟩, ⟨32, .noteOff 0 36 127⟩, ⟨56, .noteOn 0 38 76⟩,
        ⟨63, .noteOff 0 38 76⟩, ⟨64, .noteOn 0 38 102⟩, ⟨96, .noteOff 0 38 102⟩] ∧
      others.Sublist stamps ∧ stamps.Perm (others ++ [⟨56, .noteOn 0 38 76⟩, ⟨63, .noteOff 0 38 76⟩]) := by
  have hmessages := messages_eq [.trackName "fill"] playable_fill
  obtain ⟨-, -, body, stamps, hbody, hstamps, hperm, -, hmarked⟩ :=
    messages_merged (t := ⟨[.trackName "fill"], fill.all.map WholeEvent.toEvent⟩) rfl hmessages
  have hgrace : ∀ e ∈ fill.marked, e.tick.isSome := by decide
  obtain ⟨-, others, -, -, hothers, hrest⟩ := hmarked fill rfl hgrace
  have hheard : (fill.marked.flatMap fun e => e.soundings (e.tick.getD 0)) =
      [⟨56, true, 0, 38, 76⟩, ⟨63, false, 0, 38, 76⟩] := by
    decide +kernel
  rw [soundingsOf_fill] at hperm
  rw [hheard] at hrest
  exact ⟨_, body, stamps, others, hmessages, hbody, hstamps, hperm, hothers, hrest⟩

end Drumline
