/-
What is read back from the file of some tracks.

A track is built by calls (`TrackCall`), each of which adds a meta message or an event. `Allowed` says which calls a
reader of the file can follow; `Track.Regular` is a track that allowed calls have built, in which nothing sounds before
the start. Such a track consists of the events of the calls and of meta messages that can be read (`Track.Consists`),
by what one call adds and then a run of them.

Results:
- `Track.Regular.sounds`: a regular track consists of playable events that sound at the start or later (`Track.Sounds`).
- `Track.Sounds.exists_messages`: the messages of such a track exist, can be written and read, and end with the only end
  of the track.
- `decodeFile_of_buildFile`, `exists_buildFile`: such tracks are written, as long as no chunk has more bytes than four
  bytes count, and what is read from their file is their messages. `buildFile_of_chunkTooLong`: otherwise they are not.
- `buildFile_roundtrip`: both, for regular tracks; and no other messages are written to the same bytes.
-/
import Drumline.Midi.Contents
import Drumline.Proofs.Midi.File
import Drumline.Proofs.Track.Placement

namespace Drumline

open Midi

/-! ## Model -/

/-- a call that adds to a track -/
inductive TrackCall where
  | addName (name : String)
  | setTempo (bpm : Number)
  | setTimeSignature (numerator denominator : Int)
  | addEvent (event : WholeEvent)

namespace TrackCall

def apply (t : Track) : TrackCall → Except ScoreError Track
  | .addName name => .ok (t.addName name)
  | .setTempo bpm => t.setTempo bpm
  | .setTimeSignature numerator denominator => t.setTimeSignature (.int numerator) (.int denominator)
  | .addEvent event => .ok (t.addEvent event.toEvent)

/-- whether a reader can follow what the call adds; a tempo is checked by the call itself -/
def Allowed : TrackCall → Prop
  | .addName name => (Text.encode name.toList).length ≤ longestData
  | .setTempo _ => True
  | .setTimeSignature numerator denominator =>
    (0 ≤ numerator ∧ numerator ≤ 255) ∧ (denominator = 4 ∨ denominator = 8)
  | .addEvent event => event.Playable

def event? : TrackCall → Option WholeEvent
  | .addEvent event => some event
  | _ => none

def eventsOf (calls : List TrackCall) : List WholeEvent := calls.filterMap event?

end TrackCall

namespace Track

/-- the track that some calls make of the empty one -/
def ofCalls (calls : List TrackCall) : Except ScoreError Track := calls.foldlM TrackCall.apply empty

/-- whether allowed calls have built the track, and everything in it sounds at the start or later -/
def Regular (t : Track) : Prop :=
  ∃ calls, ofCalls calls = .ok t ∧ (∀ call ∈ calls, call.Allowed) ∧
    ∀ s ∈ soundingsFrom 0 (calls.filterMap TrackCall.event?), 0 ≤ s.tick

/-- whether the bytes of the track's messages are few enough to be counted in four bytes -/
def FitsChunk (t : Track) : Prop :=
  ∀ timed data, t.messages = .ok timed → encodeMessages none timed = .ok data → data.length < 2 ^ 32

/-- whether a track has messages, and time only runs forward from each to the next -/
def Forward (t : Track) : Prop :=
  ∃ timed, t.messages = .ok timed ∧ ∀ m ∈ timed, ∃ ticks : Nat, m.delta = .int ticks

/-- whether a track has these events, all of them playable, and meta messages that are read as they are written -/
structure Consists (t : Track) (events : List WholeEvent) : Prop where
  events_eq : t.events = events.map WholeEvent.toEvent
  playable : ∀ e ∈ events, e.Playable
  metas : ∀ m ∈ t.metas, m.rank = 0 ∧ m.Readable ∧ m ≠ .endOfTrack

/-- whether a track consists of events that sound at the start or later -/
def Sounds (t : Track) : Prop :=
  ∃ events, t.Consists events ∧ ∀ s ∈ soundingsFrom 0 events, 0 ≤ s.tick

end Track

/-! ## Building -/

theorem setTempo_eq_ok {t t' : Track} {bpm : Number} (h : t.setTempo bpm = .ok t') :
    ∃ length, t' = t.addMeta (.setTempo length) := by
  obtain ⟨tempo, -, h⟩ := bind_eq_ok.1 h
  obtain ⟨length, -, h⟩ := bind_eq_ok.1 h
  cases h
  exact ⟨length, rfl⟩

theorem setTimeSignature_eq_ok {t t' : Track} {numerator denominator : Number}
    (h : t.setTimeSignature numerator denominator = .ok t') :
    ∃ n d, Midi.denominator denominator = .ok d ∧ t' = t.addMeta (.timeSignature n d 24 8) := by
  obtain ⟨n, -, h⟩ := bind_eq_ok.1 h
  obtain ⟨d, hd, h⟩ := bind_eq_ok.1 h
  cases h
  exact ⟨n, d, mapError_eq_ok.1 hd, rfl⟩

theorem roundedLogTwo?_four : roundedLogTwo? 4 = some 2 := by decide +kernel

theorem roundedLogTwo?_eight : roundedLogTwo? 8 = some 3 := by decide +kernel

/-- a denominator that is accepted is the one that was given -/
theorem value_of_denominator_eq_ok {n : Int} {d : Denominator} (h : Midi.denominator (.int n) = .ok d) :
    (d.value : Int) = n := by
  unfold Midi.denominator at h
  simp only at h
  split_ifs at h with hbounds
  unfold Denominator.ofNat? at h
  split at h
  · cases h
    exact Int.toNat_of_nonneg (by omega)
  · cases h

/-- quarters and eighths are written as the powers of two that they are -/
theorem Denominator.readable {d : Denominator} (h : d.value = 4 ∨ d.value = 8) :
    d.exponent ≤ 255 ∧ d.value = 2 ^ d.exponent := by
  obtain ⟨value, exponent, rounded⟩ := d
  rcases h with h | h
  · obtain rfl : value = 4 := h
    obtain rfl : 2 = exponent := Option.some.inj (roundedLogTwo?_four.symm.trans rounded)
    exact ⟨show 2 ≤ 255 by omega, rfl⟩
  · obtain rfl : value = 8 := h
    obtain rfl : 3 = exponent := Option.some.inj (roundedLogTwo?_eight.symm.trans rounded)
    exact ⟨show 3 ≤ 255 by omega, rfl⟩

theorem events_of_apply {t t' : Track} {call : TrackCall} (h : call.apply t = .ok t') :
    t'.events = t.events ++ (TrackCall.eventsOf [call]).map WholeEvent.toEvent := by
  cases call with
  | addName name =>
    cases h
    exact (List.append_nil _).symm
  | setTempo bpm =>
    obtain ⟨length, rfl⟩ := setTempo_eq_ok h
    exact (List.append_nil _).symm
  | setTimeSignature numerator denominator =>
    obtain ⟨n, d, -, rfl⟩ := setTimeSignature_eq_ok h
    exact (List.append_nil _).symm
  | addEvent event =>
    cases h
    rfl

theorem events_of_foldlM {t t' : Track} {calls : List TrackCall} (h : calls.foldlM TrackCall.apply t = .ok t') :
    t'.events = t.events ++ (TrackCall.eventsOf calls).map WholeEvent.toEvent := by
  induction calls generalizing t with
  | nil =>
    cases h
    exact (List.append_nil _).symm
  | cons call calls ih =>
    rw [List.foldlM_cons] at h
    obtain ⟨mid, hmid, h⟩ := bind_eq_ok.1 h
    have hevents : TrackCall.eventsOf ([call] ++ calls) = TrackCall.eventsOf [call] ++ TrackCall.eventsOf calls :=
      List.filterMap_append
    rw [← List.singleton_append, ih h, events_of_apply hmid, hevents, List.map_append, List.append_assoc]

theorem events_of_ofCalls {t : Track} {calls : List TrackCall} (h : Track.ofCalls calls = .ok t) :
    t.events = (TrackCall.eventsOf calls).map WholeEvent.toEvent :=
  events_of_foldlM h

/-- the meta message that an allowed call adds is read as it is written, and does not end the track -/
theorem metas_of_apply {t t' : Track} {call : TrackCall} (hcall : call.Allowed) (h : call.apply t = .ok t')
    {m : Message} (hm : m ∈ t'.metas) : m ∈ t.metas ∨ m.rank = 0 ∧ m.Readable ∧ m ≠ .endOfTrack := by
  cases call with
  | addName name =>
    cases h
    refine (List.mem_append.1 hm).imp_right fun hm => ?_
    rw [List.mem_singleton.1 hm]
    exact ⟨rfl, hcall, Message.noConfusion⟩
  | setTempo bpm =>
    obtain ⟨length, rfl⟩ := setTempo_eq_ok h
    refine (List.mem_append.1 hm).imp_right fun hm => ?_
    rw [List.mem_singleton.1 hm]
    exact ⟨rfl, trivial, Message.noConfusion⟩
  | setTimeSignature numerator denominator =>
    obtain ⟨n, d, hd, rfl⟩ := setTimeSignature_eq_ok h
    refine (List.mem_append.1 hm).imp_right fun hm => ?_
    have hvalue := value_of_denominator_eq_ok hd
    have hpower : d.value = 4 ∨ d.value = 8 := by
      rcases hcall.2 with rfl | rfl
      · exact .inl (by exact_mod_cast hvalue)
      · exact .inr (by exact_mod_cast hvalue)
    rw [List.mem_singleton.1 hm]
    exact ⟨rfl, Denominator.readable hpower, Message.noConfusion⟩
  | addEvent event =>
    cases h
    exact .inl hm

namespace Track

/-- a run of allowed calls adds no other meta messages either -/
theorem metas_of_foldlM {t t' : Track} {calls : List TrackCall} (hcalls : ∀ call ∈ calls, call.Allowed)
    (h : calls.foldlM TrackCall.apply t = .ok t') {m : Message} (hm : m ∈ t'.metas) :
    m ∈ t.metas ∨ m.rank = 0 ∧ m.Readable ∧ m ≠ .endOfTrack := by
  induction calls generalizing t with
  | nil =>
    cases h
    exact .inl hm
  | cons call calls ih =>
    rw [List.foldlM_cons] at h
    obtain ⟨mid, hmid, h⟩ := bind_eq_ok.1 h
    rcases ih (fun c hc => hcalls c (List.mem_cons_of_mem _ hc)) h with hm | hm
    · exact metas_of_apply (hcalls call List.mem_cons_self) hmid hm
    · exact .inr hm

/-- what allowed calls build consists of the events of the calls -/
theorem consists_of_ofCalls {t : Track} {calls : List TrackCall} (hcalls : ∀ call ∈ calls, call.Allowed)
    (h : ofCalls calls = .ok t) : t.Consists (TrackCall.eventsOf calls) where
  events_eq := events_of_ofCalls h
  playable e he := by
    obtain ⟨call, hcall, hevent⟩ := List.mem_filterMap.1 he
    cases call with
    | addEvent event =>
      obtain rfl : event = e := Option.some.inj hevent
      exact hcalls _ hcall
    | _ => cases hevent
  metas m hm := (metas_of_foldlM hcalls h hm).resolve_left List.not_mem_nil

theorem Regular.sounds {t : Track} (h : t.Regular) : t.Sounds := by
  obtain ⟨calls, hbuilt, hcalls, hticks⟩ := h
  exact ⟨_, consists_of_ofCalls hcalls hbuilt, hticks⟩

/-! ## Messages -/

/-- **The messages of a track.** They exist, can be written and read, and hold one end of the track, as the last. -/
theorem Sounds.exists_messages {t : Track} (h : t.Sounds) :
    ∃ body, t.messages = .ok (body ++ [⟨0, .endOfTrack⟩]) ∧
      ∀ m ∈ body, (∃ ticks : Nat, m.delta = .int ticks) ∧ m.message.Readable ∧ m.message ≠ .endOfTrack := by
  obtain ⟨events, h, hticks⟩ := h
  obtain ⟨metas, toEvents⟩ := t
  obtain ⟨rfl, hplayable, hmetas⟩ := h
  refine ⟨_, messages_eq metas hplayable, ?_⟩
  intro m hm
  have hstamp (s : Stamp) (hs : s ∈ (stampsOf metas events).mergeSort Stamp.le) :
      0 ≤ s.tick ∧ s.message.Readable ∧ s.message ≠ .endOfTrack := by
    rcases List.mem_append.1 (List.mem_mergeSort.1 hs) with hs | hs
    · obtain ⟨m, hm, rfl⟩ := List.mem_map.1 hs
      exact ⟨le_rfl, (hmetas m hm).2⟩
    · obtain ⟨sounding, hsounding, rfl⟩ := List.mem_map.1 hs
      refine ⟨hticks sounding hsounding, ?_⟩
      unfold Sounding.stamp Sounding.message
      cases sounding.starts with
      | true => exact ⟨trivial, Message.noConfusion⟩
      | false => exact ⟨trivial, Message.noConfusion⟩
  have hsorted : ((stampsOf metas events).mergeSort Stamp.le).Pairwise fun a b => a.le b :=
    List.pairwise_mergeSort Stamp.le_trans Stamp.le_total _
  obtain ⟨s, hs, hmessage⟩ := message_of_mem_deltas hm
  exact ⟨delta_of_mem_deltas hsorted (fun s hs => (hstamp s hs).1) hm, hmessage ▸ (hstamp s hs).2⟩

theorem Sounds.exists_timed {t : Track} (h : t.Sounds) : ∃ timed, t.messages = .ok timed := by
  obtain ⟨body, hbody, -⟩ := h.exists_messages
  exact ⟨_, hbody⟩

theorem Sounds.writable {t : Track} (h : t.Sounds) {timed : List (Timed Message)} (ht : t.messages = .ok timed) :
    ∀ m ∈ timed, (∃ ticks : Nat, m.delta = .int ticks) ∧ m.message.Readable := by
  obtain ⟨body, hbody, hm⟩ := h.exists_messages
  obtain rfl := Except.ok.inj (ht.symm.trans hbody)
  intro m hmem
  rcases List.mem_append.1 hmem with hmem | hmem
  · exact ⟨(hm m hmem).1, (hm m hmem).2.1⟩
  · rw [List.mem_singleton.1 hmem]
    exact ⟨⟨0, rfl⟩, trivial⟩

theorem Sounds.forward {t : Track} (h : t.Sounds) : t.Forward := by
  obtain ⟨timed, htimed⟩ := h.exists_timed
  exact ⟨timed, htimed, fun m hm => (h.writable htimed m hm).1⟩

/-- stamps in the timeline of a track that are not before the start run forward -/
theorem forward_of_timeline {t : Track} {stamps : List Stamp} (h : t.timeline = .ok (stamps.map Stamp.placed))
    (hticks : ∀ s ∈ stamps, 0 ≤ s.tick) : t.Forward := by
  refine ⟨_, messages_of_timeline h, fun m hm => ?_⟩
  have hsorted : (stamps.mergeSort Stamp.le).Pairwise fun a b => a.le b :=
    List.pairwise_mergeSort Stamp.le_trans Stamp.le_total _
  rcases List.mem_append.1 hm with hm | hm
  · exact delta_of_mem_deltas hsorted (fun s hs => hticks s (List.mem_mergeSort.1 hs)) hm
  · rw [List.mem_singleton.1 hm]
    exact ⟨0, rfl⟩

end Track

/-! ## Files -/

theorem buildFile_eq_ok {tracks : List Track} {bytes : List UInt8} :
    buildFile tracks = .ok bytes ↔ ∃ timed, tracks.mapM Track.messages = .ok timed ∧ encodeFile timed = .ok bytes := by
  unfold buildFile
  rw [bind_eq_ok]
  exact exists_congr fun timed => and_congr_right fun _ => mapError_eq_ok

theorem Timed.inFile_injective : Function.Injective Timed.inFile := by
  rintro ⟨delta, message⟩ ⟨delta', message'⟩ h
  cases h
  rfl

/-- what holds of the messages of each track holds of the messages of all tracks -/
theorem forall_of_mapM_messages {tracks : List Track} {timed : List (List (Timed Message))}
    (htimed : tracks.mapM Track.messages = .ok timed) {P : List (Timed Message) → Prop}
    (h : ∀ t ∈ tracks, ∀ track, t.messages = .ok track → P track) : ∀ track ∈ timed, P track := by
  intro track htrack
  obtain ⟨t, ht, hmessages⟩ := exists_of_mem_right (mapM_eq_ok.1 htimed) htrack
  exact h t ht track hmessages

/-- what is read from a file is the messages of its tracks -/
theorem decodeFile_of_buildFile {tracks : List Track} (h : ∀ t ∈ tracks, t.Sounds) {timed : List (List (Timed Message))}
    (htimed : tracks.mapM Track.messages = .ok timed) {bytes : List UInt8} (hbytes : buildFile tracks = .ok bytes) :
    decodeFile bytes = .ok ⟨formatOf tracks.length, ticksPerBeat, timed.map (·.map Timed.inFile)⟩ := by
  obtain ⟨timed', htimed', hbytes⟩ := buildFile_eq_ok.1 hbytes
  obtain rfl := Except.ok.inj (htimed.symm.trans htimed')
  have hlength : tracks.length = timed.length := (mapM_eq_ok.1 htimed).length_eq
  rw [hlength]
  refine decodeFile_of_encodeFile ?_ hbytes
  exact forall_of_mapM_messages htimed fun t ht track htrack m hm => ((h t ht).writable htrack m hm).2

theorem exists_messages_of_forward {tracks : List Track} (h : ∀ t ∈ tracks, t.Forward) :
    ∃ timed, tracks.mapM Track.messages = .ok timed := by
  refine exists_mapM fun t ht => ?_
  obtain ⟨timed, htimed, -⟩ := h t ht
  exact ⟨timed, htimed⟩

/-- the chunk of a track is written or too long -/
theorem trackChunk_of_forward {t : Track} (h : t.Forward) {timed : List (Timed Message)} (ht : t.messages = .ok timed) :
    (t.FitsChunk → ∃ bytes, trackChunk timed = .ok bytes) ∧
      (¬t.FitsChunk → trackChunk timed = .error .chunkTooLong) := by
  obtain ⟨timed', ht', hforward⟩ := h
  obtain rfl := Except.ok.inj (ht.symm.trans ht')
  obtain ⟨data, hdata⟩ := exists_encodeMessages hforward none
  refine ⟨fun hfits => ?_, fun hlong => ?_⟩
  · exact ⟨_, trackChunk_eq_ok.2 ⟨data, hdata, Nat.le_of_lt_succ (hfits timed data ht hdata), rfl⟩⟩
  · have hlength : longestChunk < data.length := by
      refine not_le.1 fun hle => hlong fun timed' data' ht' hdata' => ?_
      obtain rfl := Except.ok.inj (ht.symm.trans ht')
      obtain rfl := Except.ok.inj (hdata.symm.trans hdata')
      exact Nat.lt_succ_of_le hle
    rw [trackChunk, hdata]
    exact if_pos hlength

/-- at most as many tracks as a header counts are written if their chunks are -/
theorem buildFile_of_trackChunk_ok {tracks : List Track} (hcount : tracks.length ≤ maxTracks)
    {timed : List (List (Timed Message))} (htimed : tracks.mapM Track.messages = .ok timed)
    (h : ∀ track ∈ timed, ∃ bytes, trackChunk track = .ok bytes) : ∃ bytes, buildFile tracks = .ok bytes := by
  have hlength : tracks.length = timed.length := (mapM_eq_ok.1 htimed).length_eq
  obtain ⟨chunks, hchunks⟩ := exists_mapM h
  have hencoded := encodeFile_eq_ok.2 ⟨hlength ▸ hcount, chunks, hchunks, rfl⟩
  exact ⟨_, buildFile_eq_ok.2 ⟨timed, htimed, hencoded⟩⟩

/-- at most as many tracks as a header counts are written if time runs forward in them and no chunk is too long -/
theorem exists_buildFile_of_forward {tracks : List Track} (hcount : tracks.length ≤ maxTracks)
    (h : ∀ t ∈ tracks, t.Forward) (hsize : ∀ t ∈ tracks, t.FitsChunk) :
    ∃ timed bytes, tracks.mapM Track.messages = .ok timed ∧ buildFile tracks = .ok bytes := by
  obtain ⟨timed, htimed⟩ := exists_messages_of_forward h
  obtain ⟨bytes, hbytes⟩ := buildFile_of_trackChunk_ok hcount htimed <|
    forall_of_mapM_messages htimed fun t ht track htrack => (trackChunk_of_forward (h t ht) htrack).1 (hsize t ht)
  exact ⟨timed, bytes, htimed, hbytes⟩

/-- tracks with messages are not written if there is only one error in their chunks, and it is in one of them -/
theorem buildFile_of_trackChunk_error {tracks : List Track} (hcount : tracks.length ≤ maxTracks)
    {timed : List (List (Timed Message))} (htimed : tracks.mapM Track.messages = .ok timed) {e : WriteError}
    (h : ∀ track ∈ timed, trackChunk track = .error e ∨ ∃ bytes, trackChunk track = .ok bytes)
    (herror : ∃ track ∈ timed, trackChunk track = .error e) : buildFile tracks = .error (.write e) := by
  have hlength : tracks.length = timed.length := (mapM_eq_ok.1 htimed).length_eq
  have hencoded : encodeFile timed = .error e := by
    unfold encodeFile
    rw [if_neg (by omega)]
    exact bind_of_error (mapM_eq_error h herror)
  exact (bind_of_ok htimed).trans (mapError_of_error hencoded)

/-- tracks in which time runs forward are not written if the chunk of one of them is too long -/
theorem buildFile_of_forward_of_chunkTooLong {tracks : List Track} (hcount : tracks.length ≤ maxTracks)
    (h : ∀ t ∈ tracks, t.Forward) (hlong : ∃ t ∈ tracks, ¬t.FitsChunk) :
    buildFile tracks = .error (.write .chunkTooLong) := by
  obtain ⟨timed, htimed⟩ := exists_messages_of_forward h
  refine buildFile_of_trackChunk_error hcount htimed (forall_of_mapM_messages htimed fun t ht track htrack => ?_) ?_
  · by_cases hfits : t.FitsChunk
    · exact .inr ((trackChunk_of_forward (h t ht) htrack).1 hfits)
    · exact .inl ((trackChunk_of_forward (h t ht) htrack).2 hfits)
  · obtain ⟨t, ht, hlong⟩ := hlong
    obtain ⟨track, hmem, htrack⟩ := exists_of_mem_right (mapM_eq_ok.1 htimed).flip ht
    exact ⟨track, hmem, (trackChunk_of_forward (h t ht) htrack).2 hlong⟩

/-- at most as many tracks as a header counts are written, if no chunk is too long -/
theorem exists_buildFile {tracks : List Track} (hcount : tracks.length ≤ maxTracks) (h : ∀ t ∈ tracks, t.Sounds)
    (hsize : ∀ t ∈ tracks, t.FitsChunk) :
    ∃ timed bytes, tracks.mapM Track.messages = .ok timed ∧ buildFile tracks = .ok bytes :=
  exists_buildFile_of_forward hcount (fun t ht => (h t ht).forward) hsize

/-- tracks that could be written are not if the chunk of one of them is too long -/
theorem buildFile_of_chunkTooLong {tracks : List Track} (hcount : tracks.length ≤ maxTracks)
    (h : ∀ t ∈ tracks, t.Sounds) (hlong : ∃ t ∈ tracks, ¬t.FitsChunk) :
    buildFile tracks = .error (.write .chunkTooLong) :=
  buildFile_of_forward_of_chunkTooLong hcount (fun t ht => (h t ht).forward) hlong

/-- the listing of a file that holds messages of tracks shows these -/
theorem listing_inFile (format : Int) (timed : List (List (Timed Message))) :
    File.listing ⟨format, ticksPerBeat, timed.map (·.map Timed.inFile)⟩ = .record [
      ("header", .record [("format", .int format), ("numTracks", .int timed.length), ("ticksPerBeat", .int 128)]),
      ("tracks", .list (timed.map fun track => .list (track.map (Timed.listing Message.fields))))] := by
  have hmessage : Timed.listing FileMessage.fields ∘ Timed.inFile = Timed.listing Message.fields := rfl
  unfold File.listing
  simp only [List.length_map, List.map_map, Function.comp_def] at hmessage ⊢
  simp only [hmessage]
  rfl

/-- **Reading undoes writing.** The file of at most as many regular tracks as a header counts is written if no chunk is
too long. It is read back as the messages of the tracks, each with one end, and the tracks of no other file with the
same bytes have other messages. -/
theorem buildFile_roundtrip {tracks : List Track} (hcount : tracks.length ≤ maxTracks)
    (h : ∀ t ∈ tracks, t.Regular) (hsize : ∀ t ∈ tracks, t.FitsChunk) :
    ∃ timed bytes, tracks.mapM Track.messages = .ok timed ∧ buildFile tracks = .ok bytes ∧
      decodeFile bytes = .ok ⟨if tracks.length = 1 then 0 else 1, 128, timed.map (·.map Timed.inFile)⟩ ∧
      (decodeFile bytes).map File.listing = .ok (.record [
        ("header", .record [("format", .int (if tracks.length = 1 then 0 else 1)), ("numTracks", .int tracks.length),
          ("ticksPerBeat", .int 128)]),
        ("tracks", .list (timed.map fun track => .list (track.map (Timed.listing Message.fields))))]) ∧
      (∀ track ∈ timed, ∃ body, track = body ++ [⟨0, .endOfTrack⟩] ∧ ∀ m ∈ body, m.message ≠ .endOfTrack) ∧
      ∀ others messages, (∀ t ∈ others, t.Regular) → others.mapM Track.messages = .ok messages →
        buildFile others = .ok bytes → messages = timed := by
  have hsounds : ∀ t ∈ tracks, t.Sounds := fun t ht => (h t ht).sounds
  obtain ⟨timed, bytes, htimed, hbytes⟩ := exists_buildFile hcount hsounds hsize
  have hlength : tracks.length = timed.length := (mapM_eq_ok.1 htimed).length_eq
  have hdecoded := decodeFile_of_buildFile hsounds htimed hbytes
  have hformat : ((formatOf tracks.length : Nat) : Int) = if tracks.length = 1 then 0 else 1 := by
    unfold formatOf
    split <;> rfl
  rw [hformat] at hdecoded
  refine ⟨timed, bytes, htimed, hbytes, hdecoded, ?_, ?_, ?_⟩
  · rw [hdecoded, hlength]
    exact congrArg Except.ok (listing_inFile _ timed)
  · refine forall_of_mapM_messages htimed fun t ht track htrack => ?_
    obtain ⟨body, hbody, hm⟩ := (hsounds t ht).exists_messages
    exact ⟨body, Except.ok.inj (htrack.symm.trans hbody), fun m hmem => (hm m hmem).2.2⟩
  · intro others messages hothers hothersMessages hothersBytes
    have hother := decodeFile_of_buildFile (fun t ht => (hothers t ht).sounds) hothersMessages hothersBytes
    have htracks := congrArg File.tracks (Except.ok.inj (hother.symm.trans hdecoded))
    exact List.map_injective_iff.2 (List.map_injective_iff.2 Timed.inFile_injective) htracks

/-! ## One note -/

/-- a bass drum at full velocity -/
def kick : WholeEvent := { pitches := [36], duration := 32, velocity := 100 }

theorem kick_loudness : kick.loudness = 127 := by decide +kernel

theorem kick_playable : kick.Playable where
  converts := by decide +kernel
  pitches := by decide
  channel _ := by decide
  loudness _ := by
    rw [kick_loudness]
    decide

theorem soundingsFrom_kick : soundingsFrom 0 [kick] = [⟨0, true, 0, 36, 127⟩, ⟨32, false, 0, 36, 127⟩] := by
  simp only [soundingsFrom, WholeEvent.soundings, kick_loudness]
  rfl

theorem messages_kick : Track.messages ⟨[.trackName "kick"], [kick.toEvent]⟩ =
    .ok [⟨0, .trackName "kick"⟩, ⟨0, .noteOn 0 36 127⟩, ⟨32, .noteOff 0 36 127⟩, ⟨0, .endOfTrack⟩] := by
  have hsorted : (stampsOf [.trackName "kick"] [kick]).mergeSort Stamp.le =
      [⟨0, .trackName "kick"⟩, ⟨0, .noteOn 0 36 127⟩, ⟨32, .noteOff 0 36 127⟩] := by
    rw [stampsOf, soundingsFrom_kick]
    cbv
  have hplayable : ∀ e ∈ [kick], e.Playable := fun e he => List.mem_singleton.1 he ▸ kick_playable
  have h := messages_eq [.trackName "kick"] hplayable
  rw [hsorted] at h
  exact h

theorem regular_kick : Track.Regular ⟨[.trackName "kick"], [kick.toEvent]⟩ := by
  refine ⟨[.addName "kick", .addEvent kick], rfl, fun call hcall => ?_, ?_⟩
  · rcases List.mem_cons.1 hcall with rfl | hcall
    · show (Text.encode "kick".toList).length ≤ longestData
      decide +kernel
    · rw [List.mem_singleton.1 hcall]
      exact kick_playable
  · show ∀ s ∈ soundingsFrom 0 [kick], 0 ≤ s.tick
    rw [soundingsFrom_kick]
    decide

theorem fitsChunk_kick : Track.FitsChunk ⟨[.trackName "kick"], [kick.toEvent]⟩ := by
  intro timed data htimed hdata
  obtain rfl := Except.ok.inj (messages_kick.symm.trans htimed)
  have hbytes : encodeMessages none [⟨0, .trackName "kick"⟩, ⟨0, .noteOn 0 36 127⟩, ⟨32, .noteOff 0 36 127⟩,
      ⟨0, .endOfTrack⟩] = .ok [0, 255, 3, 4, 107, 105, 99, 107, 0, 144, 36, 127, 32, 128, 36, 127, 0, 255, 47, 0] := by
    cbv
  obtain rfl := Except.ok.inj (hbytes.symm.trans hdata)
  decide

theorem buildFile_kick :
    ∃ bytes, buildFile [⟨[.trackName "kick"], [kick.toEvent]⟩] = .ok bytes ∧
      (decodeFile bytes).map (·.tracks) = .ok [[⟨0, .drum (.trackName "kick")⟩, ⟨0, .drum (.noteOn 0 36 127)⟩,
        ⟨32, .drum (.noteOff 0 36 127)⟩, ⟨0, .drum .endOfTrack⟩]] := by
  obtain ⟨timed, bytes, htimed, hbytes, hdecoded, -⟩ :=
    buildFile_roundtrip (show [_].length ≤ maxTracks by decide) (fun t ht => List.mem_singleton.1 ht ▸ regular_kick)
      (fun t ht => List.mem_singleton.1 ht ▸ fitsChunk_kick)
  have hall : [_].mapM Track.messages = .ok [_] := mapM_eq_ok.2 (.cons messages_kick .nil)
  obtain rfl := Except.ok.inj (hall.symm.trans htimed)
  refine ⟨bytes, hbytes, ?_⟩
  rw [hdecoded]
  rfl

end Drumline
