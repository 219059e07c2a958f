/-
Which tracks of whole numbers are written. Nothing about an event is checked when it is added, so it is the file that
accepts or refuses it. An event with notes has to be `WholeEvent.Writable` behind the events before it: the values of
its notes are of the right size, and they neither start nor end before the track does. An event without notes is not
looked at, but those behind it start where it leaves the cursor.

Values are looked at first, event by event, and the first event that is not playable gives the error
(`messages_of_unplayable`). Ticks are looked at when the messages are in order, and then only as deltas. Still none
that is negative stays unseen. The first message in order is at the least tick of all, so its own delta is negative as
soon as any tick is (`encodeMessages_of_negative`), and behind it no other delta can be.

Main result: `buildFile_accepts`.
-/
import Drumline.Conversion
import Drumline.Proofs.Track.Merge
import Drumline.Proofs.Track.Steady

namespace Drumline

open Midi

/-! ## Model -/

namespace WholeEvent

/-- whether the notes of an event can be written behind other events: their values are of the right size, and they
neither start nor end before the track does -/
structure Writable (e : WholeEvent) (earlier : List WholeEvent) : Prop where
  pitches : ∀ pitch ∈ e.pitches, 0 ≤ pitch ∧ pitch ≤ 127
  channel : 0 ≤ e.channel ∧ e.channel ≤ 15
  velocity : Velocity.Fits (.int e.velocity)
  start : 0 ≤ e.startAfter earlier
  stop : 0 ≤ e.startAfter earlier + e.duration

/-- what is wrong with the notes of an event that is not playable; the channel is looked at first -/
def fault (e : WholeEvent) : FieldError :=
  if 0 ≤ e.channel ∧ e.channel ≤ 15 then .dataByteRange else .channelRange

instance (e : WholeEvent) : Decidable e.Playable :=
  decidable_of_iff (Velocity.toData (.int e.velocity) = .ok e.loudness ∧
    (∀ pitch ∈ e.pitches, 0 ≤ pitch ∧ pitch ≤ 127) ∧ (e.pitches ≠ [] → 0 ≤ e.channel ∧ e.channel ≤ 15) ∧
      (e.pitches ≠ [] → 0 ≤ e.loudness ∧ e.loudness ≤ 127))
    ⟨fun ⟨converts, pitches, channel, loudness⟩ => ⟨converts, pitches, channel, loudness⟩,
      fun h => ⟨h.converts, h.pitches, h.channel, h.loudness⟩⟩

end WholeEvent

/-- whether every event that has notes can be written behind the events before it -/
def Accepted (events : List WholeEvent) : Prop :=
  ∀ earlier e later, events = earlier ++ e :: later → e.pitches ≠ [] → e.Writable earlier

/-- the first event that is not playable -/
def firstUnplayable? (events : List WholeEvent) : Option WholeEvent := events.find? fun e => !decide e.Playable

/-! ## Ticks -/

/-- the members of a list, each with those before it -/
theorem mem_zip_inits {α : Type} {l earlier : List α} {a : α} :
    (earlier, a) ∈ l.inits.zip l ↔ ∃ later, l = earlier ++ a :: later := by
  induction l generalizing earlier with
  | nil => simp
  | cons b l ih =>
    rw [List.inits_cons, List.zip_cons_cons, List.zip_map_left, List.mem_cons, List.mem_map]
    cases earlier with
    | nil => simp [eq_comm]
    | cons c earlier =>
      have hrest : (∃ p ∈ l.inits.zip l, (Prod.map (b :: ·) id p) = (c :: earlier, a)) ↔
          b = c ∧ ∃ later, l = earlier ++ a :: later := by
        rw [← ih]
        constructor
        · rintro ⟨⟨front, d⟩, hmem, heq⟩
          cases heq
          exact ⟨rfl, hmem⟩
        · rintro ⟨rfl, hmem⟩
          exact ⟨_, hmem, rfl⟩
      rw [hrest]
      simp

theorem WholeEvent.mem_soundings {e : WholeEvent} {start : Int} {s : Sounding} :
    s ∈ e.soundings start ↔ ∃ pitch ∈ e.pitches, s = ⟨start, true, e.channel, pitch, e.loudness⟩ ∨
      s = ⟨start + e.duration, false, e.channel, pitch, e.loudness⟩ := by
  simp only [soundings, List.mem_append, List.mem_map, and_or_left, exists_or, eq_comm]

theorem mem_soundingsOf {events : List WholeEvent} {s : Sounding} :
    s ∈ soundingsOf events ↔
      ∃ earlier e later, events = earlier ++ e :: later ∧ s ∈ e.soundings (e.startAfter earlier) := by
  simp only [soundingsOf, List.mem_flatMap, Prod.exists, mem_zip_inits, exists_and_right]

/-- nothing of some events sounds before the start if none of those with notes starts or ends there -/
theorem soundingsOf_nonneg_iff {events : List WholeEvent} : (∀ s ∈ soundingsOf events, 0 ≤ s.tick) ↔
    ∀ earlier e later, events = earlier ++ e :: later → e.pitches ≠ [] →
      0 ≤ e.startAfter earlier ∧ 0 ≤ e.startAfter earlier + e.duration := by
  constructor
  · intro h earlier e later hevents hpitches
    obtain ⟨pitch, hpitch⟩ := List.exists_mem_of_ne_nil _ hpitches
    have hsounds (s : Sounding) (hs : s ∈ e.soundings (e.startAfter earlier)) : 0 ≤ s.tick :=
      h s (mem_soundingsOf.2 ⟨earlier, e, later, hevents, hs⟩)
    exact ⟨hsounds _ (WholeEvent.mem_soundings.2 ⟨pitch, hpitch, .inl rfl⟩),
      hsounds _ (WholeEvent.mem_soundings.2 ⟨pitch, hpitch, .inr rfl⟩)⟩
  · intro h s hs
    obtain ⟨earlier, e, later, hevents, hs⟩ := mem_soundingsOf.1 hs
    obtain ⟨pitch, hpitch, hs⟩ := WholeEvent.mem_soundings.1 hs
    obtain ⟨hstart, hstop⟩ := h earlier e later hevents (List.ne_nil_of_mem hpitch)
    rcases hs with rfl | rfl
    · exact hstart
    · exact hstop

/-! ## What is accepted -/

/-- **What is accepted.** Events whose velocities can be converted are accepted if all of them are playable and nothing
of them sounds before the start. -/
theorem accepted_iff {events : List WholeEvent}
    (hconverts : ∀ e ∈ events, ∃ data, Velocity.toData (.int e.velocity) = .ok data) :
    Accepted events ↔ (∀ e ∈ events, e.Playable) ∧ ∀ s ∈ soundingsOf events, 0 ≤ s.tick := by
  constructor
  · intro h
    refine ⟨fun e he => ?_, soundingsOf_nonneg_iff.2 fun earlier e later hevents hpitches => ?_⟩
    · obtain ⟨data, hdata⟩ := hconverts e he
      obtain rfl := WholeEvent.loudness_eq hdata
      obtain ⟨earlier, later, hevents⟩ := List.append_of_mem he
      have hwritable := h earlier e later hevents
      refine ⟨hdata, fun pitch hpitch => ?_, fun hpitches => (hwritable hpitches).channel, fun hpitches => ?_⟩
      · exact (hwritable (List.ne_nil_of_mem hpitch)).pitches pitch hpitch
      · obtain ⟨data, hdata', hbounds⟩ := (hwritable hpitches).velocity
        rw [WholeEvent.loudness_eq hdata']
        exact hbounds
    · exact ⟨(h earlier e later hevents hpitches).start, (h earlier e later hevents hpitches).stop⟩
  · rintro ⟨hplayable, hticks⟩ earlier e later hevents hpitches
    have hmem : e ∈ events := hevents ▸ List.mem_append_right _ List.mem_cons_self
    obtain ⟨hstart, hstop⟩ := soundingsOf_nonneg_iff.1 hticks earlier e later hevents hpitches
    have he := hplayable e hmem
    exact ⟨he.pitches, he.channel hpitches, ⟨_, he.converts, he.loudness hpitches⟩, hstart, hstop⟩

/-! ## Values -/

theorem channel_of_not_bounds {value : Int} (h : ¬(0 ≤ value ∧ value ≤ 15)) :
    channel (.int value) = .error .channelRange := by
  have hlt : ¬(0 ≤ value ∧ value.toNat < 15 + 1) := by omega
  rw [channel, toFin?, dif_neg hlt]
  rfl

/-- a whole number makes a data byte, or its size is wrong -/
theorem dataByte_int (value : Int) :
    dataByte (.int value) = .error .dataByteRange ∨ ∃ byte, dataByte (.int value) = .ok byte := by
  by_cases h : 0 ≤ value ∧ value ≤ 127
  · exact .inr ⟨_, dataByte_of_bounds h⟩
  · exact .inl (dataByte_of_not_bounds h)

namespace WholeEvent

variable {e : WholeEvent} {data : Int}

/-- a note of an event is made, or its error is the fault of the event -/
theorem note_eq_fault (data pitch : Int) (make : Channel → DataByte → DataByte → Message) :
    e.toEvent.note make data (.int pitch) = .error e.fault ∨
      ∃ message, e.toEvent.note make data (.int pitch) = .ok message := by
  unfold fault
  split
  · rename_i hchannel
    have hbound := channel_of_bounds hchannel
    rcases dataByte_int pitch with hpitch | ⟨note, hnote⟩
    · exact .inl ((bind_of_ok hbound).trans (bind_of_error hpitch))
    · rcases dataByte_int data with hdata | ⟨velocity, hvelocity⟩
      · exact .inl ((bind_of_ok hbound).trans ((bind_of_ok hnote).trans (bind_of_error hdata)))
      · exact .inr ⟨_, (bind_of_ok hbound).trans ((bind_of_ok hnote).trans (bind_of_ok hvelocity))⟩
  · rename_i hchannel
    exact .inl (bind_of_error (channel_of_not_bounds hchannel))

/-- the notes of an event that is not playable are not made, and its fault is why -/
theorem notes_of_unplayable (hdata : Velocity.toData (.int e.velocity) = .ok data) (h : ¬e.Playable)
    (make : Channel → DataByte → DataByte → Message) : e.toEvent.notes make data = .error e.fault := by
  refine mapM_eq_error (fun pitch hpitch => ?_) ?_
  · obtain ⟨pitch, -, rfl⟩ := List.mem_map.1 hpitch
    exact note_eq_fault data pitch make
  · by_contra hnone
    refine h (playable_of_notes hdata make fun pitch hpitch => (note_eq_fault data pitch make).resolve_left ?_)
    exact fun herror => hnone ⟨_, List.mem_map_of_mem hpitch, herror⟩

theorem place_of_unplayable (hdata : Velocity.toData (.int e.velocity) = .ok data) (h : ¬e.Playable) (cursor : Int) :
    e.toEvent.place (.int cursor) = .error (.field e.fault) := by
  have hstop : (Number.int (e.start cursor)).add e.toEvent.duration = .ok (.int (e.start cursor + e.duration)) := rfl
  have hnotes := notes_of_unplayable hdata h .noteOn
  refine (bind_of_ok (mapError_eq_ok.2 (e.toEvent_start cursor))).trans ((bind_of_ok (mapError_eq_ok.2 hstop)).trans ?_)
  exact (bind_of_ok (mapError_eq_ok.2 hdata)).trans (bind_of_error (mapError_of_error hnotes))

end WholeEvent

/-- the first event that is not playable keeps all of them from being placed -/
theorem placeEvents_of_unplayable {events : List WholeEvent}
    (hconverts : ∀ e ∈ events, ∃ data, Velocity.toData (.int e.velocity) = .ok data) {e : WholeEvent}
    (h : firstUnplayable? events = some e) (cursor : Int) :
    placeEvents (.int cursor) (events.map WholeEvent.toEvent) = .error (.field e.fault) := by
  induction events generalizing cursor with
  | nil => cases h
  | cons first events ih =>
    by_cases hfirst : first.Playable
    · have hrest : firstUnplayable? events = some e := by
        rwa [firstUnplayable?, List.find?_cons_of_neg (by simpa using hfirst)] at h
      have hothers := ih (fun e he => hconverts e (List.mem_cons_of_mem _ he)) hrest (first.next cursor)
      exact (bind_of_ok (first.place_eq hfirst cursor)).trans (bind_of_error hothers)
    · rw [firstUnplayable?, List.find?_cons_of_pos (by simpa using hfirst)] at h
      obtain rfl := Option.some.inj h
      obtain ⟨data, hdata⟩ := hconverts first List.mem_cons_self
      exact bind_of_error (first.place_of_unplayable hdata hfirst cursor)

/-! ## Tracks -/

theorem firstUnplayable?_append (events others : List WholeEvent) :
    firstUnplayable? (events ++ others) = (firstUnplayable? events).or (firstUnplayable? others) :=
  List.find?_append

theorem firstUnplayable?_eq_none {events : List WholeEvent} :
    firstUnplayable? events = none ↔ ∀ e ∈ events, e.Playable := by
  simp [firstUnplayable?]

namespace Track

variable {t : Track} {events : List WholeEvent}

/-- a track has no messages if an event is not playable -/
theorem messages_of_unplayable (hevents : t.events = events.map WholeEvent.toEvent)
    (hconverts : ∀ e ∈ events, ∃ data, Velocity.toData (.int e.velocity) = .ok data) {e : WholeEvent}
    (h : firstUnplayable? events = some e) : t.messages = .error (.field e.fault) := by
  have hplaced := placeEvents_of_unplayable hconverts h 0
  rw [← hevents] at hplaced
  exact bind_of_error (bind_of_error hplaced)

/-- nothing is placed before the start of a track if no event sounds there -/
theorem exists_timeline (hevents : t.events = events.map WholeEvent.toEvent) (h : ∀ e ∈ events, e.Playable) :
    ∃ stamps : List Stamp, t.timeline = .ok (stamps.map Stamp.placed) ∧
      ((∀ s ∈ stamps, 0 ≤ s.tick) ↔ ∀ s ∈ soundingsOf events, 0 ≤ s.tick) := by
  have hplaced : placeEvents 0 t.events = .ok (((soundingsOf events).map Sounding.stamp).map Stamp.placed) := by
    rw [hevents, List.map_map, ← soundingsFrom_zero]
    exact placeEvents_eq h 0
  refine ⟨_, timeline_of_placeEvents hplaced, ?_⟩
  simp [Sounding.stamp, or_imp, forall_and]

end Track

/-- **A negative tick is seen.** It is that of the first message in order, or else the first message is before it. -/
theorem encodeMessages_of_negative {stamps : List Stamp} (hsorted : stamps.Pairwise fun a b => a.le b)
    (h : ∃ s ∈ stamps, s.tick < 0) (running : Option UInt8) (rest : List (Timed Message)) :
    encodeMessages running (deltas 0 stamps ++ rest) = .error .negativeTime := by
  obtain ⟨s, hs, hnegative⟩ := h
  cases stamps with
  | nil => exact (List.not_mem_nil hs).elim
  | cons first stamps =>
    have hfirst : first.tick < 0 := by
      rcases List.mem_cons.1 hs with rfl | hs
      · exact hnegative
      · have hle := (List.pairwise_cons.1 hsorted).1 s hs
        simp only [Stamp.le, Bool.or_eq_true, Bool.and_eq_true, decide_eq_true_eq, beq_iff_eq] at hle
        omega
    have hticks : writtenTicks (.int (first.tick - 0)) = .error .negativeTime := if_pos (by omega)
    exact bind_of_error hticks

/-- the messages of a track in which something sounds before the start are not written -/
theorem encodeMessages_of_early {t : Track} {events : List WholeEvent}
    (hevents : t.events = events.map WholeEvent.toEvent) (h : ∀ e ∈ events, e.Playable)
    (hearly : ∃ s ∈ soundingsOf events, s.tick < 0) {timed : List (Timed Message)} (htimed : t.messages = .ok timed) :
    encodeMessages none timed = .error .negativeTime := by
  obtain ⟨stamps, htimeline, hticks⟩ := Track.exists_timeline hevents h
  obtain rfl := Except.ok.inj ((messages_of_timeline htimeline).symm.trans htimed)
  obtain ⟨s, hs, hnegative⟩ : ∃ s ∈ stamps, s.tick < 0 := by
    by_contra hnone
    push Not at hnone
    obtain ⟨s, hs, hnegative⟩ := hearly
    exact not_le.2 hnegative (hticks.1 hnone s hs)
  have hsorted := List.pairwise_mergeSort Stamp.le_trans Stamp.le_total stamps
  exact encodeMessages_of_negative hsorted ⟨s, List.mem_mergeSort.2 hs, hnegative⟩ none _

/-- the chunk of a track of playable events is written if nothing sounds before the start, and it is not too long -/
theorem trackChunk_of_playable {t : Track} {events : List WholeEvent} (hevents : t.events = events.map WholeEvent.toEvent)
    (h : ∀ e ∈ events, e.Playable) (hsize : t.FitsChunk) {timed : List (Timed Message)}
    (htimed : t.messages = .ok timed) :
    ((∀ s ∈ soundingsOf events, 0 ≤ s.tick) → ∃ bytes, trackChunk timed = .ok bytes) ∧
      ((∃ s ∈ soundingsOf events, s.tick < 0) → trackChunk timed = .error .negativeTime) := by
  obtain ⟨stamps, htimeline, hticks⟩ := Track.exists_timeline hevents h
  refine ⟨fun hlater => ?_, fun hearly => bind_of_error (encodeMessages_of_early hevents h hearly htimed)⟩
  exact (trackChunk_of_forward (Track.forward_of_timeline htimeline (hticks.2 hlater)) htimed).1 hsize

/-! ## Files -/

section Files

variable {runs : List (List TrackCall)} {tracks : List Track}

/-- the first event that is not playable keeps all tracks from having messages -/
theorem mapM_messages_of_unplayable (hbuilt : List.Forall₂ (fun run t => Track.ofCalls run = .ok t) runs tracks)
    (hconverts : ∀ run ∈ runs, ∀ e ∈ TrackCall.eventsOf run, ∃ data, Velocity.toData (.int e.velocity) = .ok data)
    {e : WholeEvent} (h : firstUnplayable? (runs.flatMap TrackCall.eventsOf) = some e) :
    tracks.mapM Track.messages = .error (.field e.fault) := by
  induction hbuilt with
  | nil => cases h
  | @cons run t runs tracks ht _ ih =>
    rw [List.flatMap_cons, firstUnplayable?_append, Option.or_eq_some_iff] at h
    have hevents := events_of_ofCalls ht
    rcases h with hrun | ⟨hrun, hrest⟩
    · exact bind_of_error (Track.messages_of_unplayable hevents (hconverts run List.mem_cons_self) hrun)
    · have hothers := ih (fun run hmem => hconverts run (List.mem_cons_of_mem _ hmem)) hrest
      obtain ⟨stamps, htimeline, -⟩ := Track.exists_timeline hevents (firstUnplayable?_eq_none.1 hrun)
      rw [List.mapM_cons]
      exact (bind_of_ok (messages_of_timeline htimeline)).trans (bind_of_error hothers)

/-- tracks of playable events are written if nothing sounds before the start of one of them, and no chunk is too long -/
theorem buildFile_of_playable (hbuilt : List.Forall₂ (fun run t => Track.ofCalls run = .ok t) runs tracks)
    (hcount : tracks.length ≤ maxTracks) (h : ∀ run ∈ runs, ∀ e ∈ TrackCall.eventsOf run, e.Playable)
    (hsize : ∀ t ∈ tracks, t.FitsChunk) :
    ((∀ run ∈ runs, ∀ s ∈ soundingsOf (TrackCall.eventsOf run), 0 ≤ s.tick) → ∃ bytes, buildFile tracks = .ok bytes) ∧
      ((∃ run ∈ runs, ∃ s ∈ soundingsOf (TrackCall.eventsOf run), s.tick < 0) →
        buildFile tracks = .error (.write .negativeTime)) := by
  have hchunk (run : List TrackCall) (hrun : run ∈ runs) (t : Track) (ht : t ∈ tracks) (hcalls : Track.ofCalls run = .ok t)
      (track : List (Timed Message)) (htrack : t.messages = .ok track) :=
    trackChunk_of_playable (events_of_ofCalls hcalls) (h run hrun) (hsize t ht) htrack
  obtain ⟨timed, htimed⟩ : ∃ timed, tracks.mapM Track.messages = .ok timed := by
    refine exists_mapM fun t ht => ?_
    obtain ⟨run, hrun, hcalls⟩ := exists_of_mem_right hbuilt ht
    obtain ⟨stamps, htimeline, -⟩ := Track.exists_timeline (events_of_ofCalls hcalls) (h run hrun)
    exact ⟨_, messages_of_timeline htimeline⟩
  refine ⟨fun hlater => ?_, fun hearly => ?_⟩
  · refine buildFile_of_trackChunk_ok hcount htimed (forall_of_mapM_messages htimed fun t ht track htrack => ?_)
    obtain ⟨run, hrun, hcalls⟩ := exists_of_mem_right hbuilt ht
    exact (hchunk run hrun t ht hcalls track htrack).1 (hlater run hrun)
  · refine buildFile_of_trackChunk_error hcount htimed (forall_of_mapM_messages htimed fun t ht track htrack => ?_) ?_
    · obtain ⟨run, hrun, hcalls⟩ := exists_of_mem_right hbuilt ht
      obtain ⟨hwritten, hrefused⟩ := hchunk run hrun t ht hcalls track htrack
      by_cases hlater : ∀ s ∈ soundingsOf (TrackCall.eventsOf run), 0 ≤ s.tick
      · exact .inr (hwritten hlater)
      · push Not at hlater
        exact .inl (hrefused hlater)
    · obtain ⟨run, hrun, hsound⟩ := hearly
      obtain ⟨t, ht, hcalls⟩ := exists_of_mem_right hbuilt.flip hrun
      obtain ⟨track, hmem, htrack⟩ := exists_of_mem_right (mapM_eq_ok.1 htimed).flip ht
      exact ⟨track, hmem, (hchunk run hrun t ht hcalls track htrack).2 hsound⟩

end Files

theorem WholeEvent.isReported_fault (e : WholeEvent) : (ScoreError.field e.fault).isReported = true := by
  unfold WholeEvent.fault
  split
  · rfl
  · rfl

/-- **What the file of some tracks accepts.** At most as many tracks as a header counts, built by calls whose events are
of whole numbers with velocities that can be converted, are written exactly if the events of each track are accepted, as
long as no chunk is too long. Otherwise there is a report and no file. The report is about the first event in the file
that is not playable, if there is one, and else about a negative time. -/
theorem buildFile_accepts {runs : List (List TrackCall)} {tracks : List Track}
    (hbuilt : runs.mapM Track.ofCalls = .ok tracks) (hcount : tracks.length ≤ maxTracks)
    (hconverts : ∀ run ∈ runs, ∀ e ∈ TrackCall.eventsOf run, ∃ data, Velocity.toData (.int e.velocity) = .ok data)
    (hsize : ∀ t ∈ tracks, t.FitsChunk) :
    ((∃ bytes, buildFile tracks = .ok bytes) ↔ ∀ run ∈ runs, Accepted (TrackCall.eventsOf run)) ∧
    (¬(∀ run ∈ runs, Accepted (TrackCall.eventsOf run)) →
      ∃ error, buildFile tracks = .error error ∧ error.isReported = true) ∧
    (∀ e, firstUnplayable? (runs.flatMap TrackCall.eventsOf) = some e → buildFile tracks = .error (.field e.fault)) ∧
    (firstUnplayable? (runs.flatMap TrackCall.eventsOf) = none →
      ¬(∀ run ∈ runs, Accepted (TrackCall.eventsOf run)) → buildFile tracks = .error (.write .negativeTime)) := by
  have hmembers := mapM_eq_ok.1 hbuilt
  have haccepted : (∀ run ∈ runs, Accepted (TrackCall.eventsOf run)) ↔
      (∀ run ∈ runs, ∀ e ∈ TrackCall.eventsOf run, e.Playable) ∧
        ∀ run ∈ runs, ∀ s ∈ soundingsOf (TrackCall.eventsOf run), 0 ≤ s.tick := by
    rw [← forall₂_and]
    exact forall₂_congr fun run hrun => accepted_iff (hconverts run hrun)
  have hunplayable (e : WholeEvent) (he : firstUnplayable? (runs.flatMap TrackCall.eventsOf) = some e) :
      buildFile tracks = .error (.field e.fault) :=
    bind_of_error (mapM_messages_of_unplayable hmembers hconverts he)
  have hplayable (hnone : firstUnplayable? (runs.flatMap TrackCall.eventsOf) = none) :
      ∀ run ∈ runs, ∀ e ∈ TrackCall.eventsOf run, e.Playable := fun run hrun e he =>
    firstUnplayable?_eq_none.1 hnone e (List.mem_flatMap.2 ⟨run, hrun, he⟩)
  have hearly (hnone : firstUnplayable? (runs.flatMap TrackCall.eventsOf) = none)
      (hnot : ¬∀ run ∈ runs, Accepted (TrackCall.eventsOf run)) : buildFile tracks = .error (.write .negativeTime) := by
    refine (buildFile_of_playable hmembers hcount (hplayable hnone) hsize).2 ?_
    by_contra hticks
    push Not at hticks
    exact hnot (haccepted.2 ⟨hplayable hnone, hticks⟩)
  have hrefused (hnot : ¬∀ run ∈ runs, Accepted (TrackCall.eventsOf run)) :
      ∃ error, buildFile tracks = .error error ∧ error.isReported = true := by
    cases hfirst : firstUnplayable? (runs.flatMap TrackCall.eventsOf) with
    | some e => exact ⟨_, hunplayable e hfirst, e.isReported_fault⟩
    | none => exact ⟨_, hearly hfirst hnot, rfl⟩
  refine ⟨⟨fun ⟨bytes, hbytes⟩ => ?_, fun h => ?_⟩, hrefused, hunplayable, hearly⟩
  · by_contra hnot
    obtain ⟨error, herror, -⟩ := hrefused hnot
    cases hbytes.symm.trans herror
  · obtain ⟨hall, hticks⟩ := haccepted.1 h
    exact (buildFile_of_playable hmembers hcount hall hsize).1 hticks

/-! ## Before the start -/

/-- an event without notes, on no channel, that ends before it starts -/
def stepBack : WholeEvent := { pitches := [], duration := -64, velocity := 100, channel := 99 }

/-- a bass drum on no channel -/
def stray : WholeEvent := { kick with channel := 16 }

/-- the bytes of a track that has none are few enough -/
theorem fitsChunk_stepBack : Track.FitsChunk ⟨[], [stepBack.toEvent, kick.toEvent]⟩ := by
  intro timed data htimed hdata
  have hplayable : ∀ e ∈ [stepBack, kick], e.Playable := by decide +kernel
  have hearly : ∃ s ∈ soundingsOf [stepBack, kick], s.tick < 0 := by decide +kernel
  cases hdata.symm.trans (encodeMessages_of_early rfl hplayable hearly htimed)

theorem fitsChunk_stray : Track.FitsChunk ⟨[], [stray.toEvent]⟩ := by
  intro timed data htimed
  have hfull : Velocity.toData (.int 100) = .ok 127 := by decide +kernel
  have hfirst : firstUnplayable? [stray] = some stray := by decide +kernel
  have hmessages := Track.messages_of_unplayable (t := ⟨[], [stray.toEvent]⟩) rfl
    (fun e he => ⟨127, List.mem_singleton.1 he ▸ hfull⟩) hfirst
  cases hmessages.symm.trans htimed

/-- A track is written. With another, in which an event without notes moves the bass drum before the start, it is not.
But of this one and a third, with a note on no channel, the third is reported. -/
theorem buildFile_accepts_kick :
    (∃ bytes, buildFile [⟨[.trackName "kick"], [kick.toEvent]⟩] = .ok bytes) ∧
    buildFile [⟨[.trackName "kick"], [kick.toEvent]⟩, ⟨[], [stepBack.toEvent, kick.toEvent]⟩] =
      .error (.write .negativeTime) ∧
    buildFile [⟨[], [stepBack.toEvent, kick.toEvent]⟩, ⟨[], [stray.toEvent]⟩] = .error (.field .channelRange) := by
  have hfull : Velocity.toData (.int 100) = .ok 127 := by decide +kernel
  have hconverts (runs : List (List TrackCall)) (h : ∀ run ∈ runs, ∀ e ∈ TrackCall.eventsOf run, e.velocity = 100) :
      ∀ run ∈ runs, ∀ e ∈ TrackCall.eventsOf run, ∃ data, Velocity.toData (.int e.velocity) = .ok data :=
    fun run hrun e he => ⟨127, h run hrun e he ▸ hfull⟩
  have hcount : 1 ≤ maxTracks ∧ 2 ≤ maxTracks := by decide
  have hboth (P : Track → Prop) {t t' : Track} (h : P t) (h' : P t') : ∀ u ∈ [t, t'], P u := fun u hu => by
    rcases List.mem_cons.1 hu with rfl | hu
    · exact h
    · exact List.mem_singleton.1 hu ▸ h'
  have hkick : [[.addName "kick", .addEvent kick]].mapM Track.ofCalls =
    .ok [⟨[.trackName "kick"], [kick.toEvent]⟩] := rfl
  have hearly : [[.addName "kick", .addEvent kick], [.addEvent stepBack, .addEvent kick]].mapM Track.ofCalls =
    .ok [⟨[.trackName "kick"], [kick.toEvent]⟩, ⟨[], [stepBack.toEvent, kick.toEvent]⟩] := rfl
  have hstray : [[.addEvent stepBack, .addEvent kick], [.addEvent stray]].mapM Track.ofCalls =
    .ok [⟨[], [stepBack.toEvent, kick.toEvent]⟩, ⟨[], [stray.toEvent]⟩] := rfl
  refine ⟨?_, ?_, ?_⟩
  · have hfile := buildFile_accepts hkick hcount.1 (hconverts _ (by decide))
      (fun t ht => List.mem_singleton.1 ht ▸ fitsChunk_kick)
    refine hfile.1.2 fun run hrun => ?_
    obtain rfl := List.mem_singleton.1 hrun
    have hevents : (∀ e ∈ [kick], e.Playable) ∧ ∀ s ∈ soundingsOf [kick], 0 ≤ s.tick := by decide +kernel
    exact (accepted_iff (hconverts _ (by decide) _ hrun)).2 hevents
  · have hfile := buildFile_accepts hearly hcount.2 (hconverts _ (by decide))
      (hboth Track.FitsChunk fitsChunk_kick fitsChunk_stepBack)
    refine hfile.2.2.2 (by decide +kernel) fun h => ?_
    have hkick := h _ (List.mem_cons_of_mem _ List.mem_cons_self) [stepBack] kick [] rfl (by decide)
    exact absurd hkick.start (by decide)
  · have hfile := buildFile_accepts hstray hcount.2 (hconverts _ (by decide))
      (hboth Track.FitsChunk fitsChunk_stepBack fitsChunk_stray)
    exact hfile.2.2.1 stray (by decide +kernel)

end Drumline
