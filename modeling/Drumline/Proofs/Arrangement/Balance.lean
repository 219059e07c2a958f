/-
No stuck notes in the file of a pattern: its messages are balanced, whatever the settings, as long as these are
accepted. Every event of an arrangement lasts at least a tick, the shortest grace note as well, so that it ends later
than it starts.

`balanced_messages` puts this beside the two facts about tracks that it rests on. That an event lasts is not enough
for a track in general: on a tick as far out as `far`, the sum of tick and duration is rounded to the tick again, and
the end of the note sorts before its start (`not_balanced_far`).
-/
import Drumline.Proofs.Arrangement.Events

namespace Drumline

open Midi

/-- the meta messages of an arrangement are no notes, and can be read unless the name of the track is too long -/
theorem metas_of_arrange {p : Pattern} {name : String} {o : Options} {s : Settings} {a : Arrangement}
    (hcheck : o.check = .ok s) (h : p.arrange name s = .ok a) :
    (∀ m ∈ a.track.metas, m.rank = 0) ∧
      ((Text.encode (trackNameOf name).toList).length ≤ longestData → ∀ m ∈ a.track.metas, m.Readable) := by
  obtain ⟨tempo, n, d, _, hd, -, hmetas, -⟩ := Pattern.arrange_eq_ok hcheck h
  have hmem {m : Message} (hm : m ∈ a.track.metas) :
      m = .trackName (trackNameOf name) ∨ m = .setTempo tempo ∨ m = .timeSignature n d 24 8 := by
    simpa [hmetas] using hm
  refine ⟨fun m hm => ?_, fun hname m hm => ?_⟩
  · rcases hmem hm with rfl | rfl | rfl
    · rfl
    · rfl
    · rfl
  · rcases hmem hm with rfl | rfl | rfl
    · exact hname
    · trivial
    · exact Denominator.readable hd

/-- notes and the end can be read, so the messages of a track can if its meta messages can -/
theorem readable_of_messages {t : Track} (hmetas : ∀ m ∈ t.metas, m.Readable) {timed : List (Timed Message)}
    (h : t.messages = .ok timed) : ∀ m ∈ timed, m.message.Readable := by
  intro m hm
  rcases message_of_mem_messages h hm with hmeta | hnote | hend
  · exact hmetas _ hmeta
  · cases hmessage : m.message with
    | noteOn => trivial
    | noteOff => trivial
    | _ => exact (hnote (by rw [hmessage]; rfl)).elim
  · rw [hend]
    trivial

/-- **No stuck notes.** The messages of a track are balanced if its events end later than they start. Events of whole
ticks do if they last at least one; the events of an arrangement are such, so that what its file holds is balanced. -/
theorem balanced_messages :
    (∀ t : Track, (∀ m ∈ t.metas, m.rank = 0) → EndsLater 0 t.events →
      ∀ timed, t.messages = .ok timed → Balanced (timed.map (·.message))) ∧
    (∀ events : List NoteEvent, (∀ e ∈ events, e.IsWhole) → EndsLater 0 events) ∧
    ∀ (p : Pattern) (name : String) (o : Options) (s : Settings) (a : Arrangement),
      o.check = .ok s → p.arrange name s = .ok a →
        (∀ e ∈ a.track.events, e.IsWhole) ∧
        ∀ bytes, p.toMidi name s = .ok bytes → ∃ timed, a.track.messages = .ok timed ∧
          Balanced (timed.map (·.message)) ∧ encodeFile [timed] = .ok bytes ∧
          ((Text.encode name.toList).length ≤ longestData →
            decodeFile bytes = .ok ⟨0, 128, [timed.map Timed.inFile]⟩) := by
  refine ⟨fun t hmetas hlater timed htimed => balanced_of_messages hmetas hlater htimed,
    fun events hwhole => endsLater_of_whole hwhole 0, ?_⟩
  intro p name o s a hcheck harrange
  obtain ⟨_, _, _, feel, -, hfeel, -, hevents⟩ := Pattern.arrange_eq_ok hcheck harrange
  obtain ⟨hranks, hreadable⟩ := metas_of_arrange hcheck harrange
  have hwhole : ∀ e ∈ a.track.events, e.IsWhole := fun e he =>
    (Pattern.steady_of_mem_eventsFrom hfeel le_rfl hevents he).isWhole
  refine ⟨hwhole, fun bytes hbytes => ?_⟩
  rw [Pattern.toMidi_of_arrange harrange] at hbytes
  obtain ⟨all, hall, hencoded⟩ := buildFile_eq_ok.1 hbytes
  obtain ⟨timed, htimed, hall⟩ := bind_eq_ok.1 hall
  cases hall
  refine ⟨timed, htimed, balanced_of_messages hranks (endsLater_of_whole hwhole 0) htimed, hencoded, fun hname => ?_⟩
  have hmessages := readable_of_messages (hreadable (length_encode_trackNameOf hname)) htimed
  exact decodeFile_of_encodeFile (fun track htrack => List.mem_singleton.1 htrack ▸ hmessages) hencoded

/-! ## A flam on the first step -/

/-- a snare on two lines, and on one of them with a flam before which there is no room -/
def opening : Pattern := ⟨[⟨38, ['f']⟩, ⟨38, ['x']⟩], [], 1⟩

def eighths : Denominator := ⟨8, 3, roundedLogTwo?_eight⟩

/-- with the default options its grace note is moved behind its main notes, which end last -/
theorem arrange_opening : ∃ a timed chunk, opening.arrange "opening.pat" Settings.standard = .ok a ∧
    a.track.messages = .ok timed ∧ trackChunk timed = .ok chunk ∧
    timed = [⟨0, .trackName "opening"⟩, ⟨0, .setTempo 500000⟩, ⟨0, .timeSignature 1 eighths 24 8⟩,
      ⟨0, .noteOn 0 38 102⟩, ⟨0, .noteOn 0 38 102⟩, ⟨8, .noteOn 0 38 76⟩, ⟨7, .noteOff 0 38 76⟩,
      ⟨49, .noteOff 0 38 102⟩, ⟨0, .noteOff 0 38 102⟩, ⟨0, .endOfTrack⟩] := by
  have htimeline : ((opening.arrange "opening.pat" Settings.standard).map (·.track) >>= Track.timeline) =
      .ok ([⟨0, .trackName "opening"⟩, ⟨0, .setTempo 500000⟩, ⟨0, .timeSignature 1 eighths 24 8⟩,
        ⟨8, .noteOn 0 38 76⟩, ⟨15, .noteOff 0 38 76⟩, ⟨0, .noteOn 0 38 102⟩, ⟨0, .noteOn 0 38 102⟩,
        ⟨64, .noteOff 0 38 102⟩, ⟨64, .noteOff 0 38 102⟩].map Stamp.placed) := by
    decide +kernel
  have hsort : [⟨0, .trackName "opening"⟩, ⟨0, .setTempo 500000⟩, ⟨0, .timeSignature 1 eighths 24 8⟩,
      ⟨8, .noteOn 0 38 76⟩, ⟨15, .noteOff 0 38 76⟩, ⟨0, .noteOn 0 38 102⟩, ⟨0, .noteOn 0 38 102⟩,
      ⟨64, .noteOff 0 38 102⟩, ⟨64, .noteOff 0 38 102⟩].mergeSort Stamp.le =
        [⟨0, .trackName "opening"⟩, ⟨0, .setTempo 500000⟩, ⟨0, .timeSignature 1 eighths 24 8⟩, ⟨0, .noteOn 0 38 102⟩,
          ⟨0, .noteOn 0 38 102⟩, ⟨8, .noteOn 0 38 76⟩, ⟨15, .noteOff 0 38 76⟩, ⟨64, .noteOff 0 38 102⟩,
          ⟨64, .noteOff 0 38 102⟩] := by
    cbv
  obtain ⟨track, htrack, htimeline⟩ := bind_eq_ok.1 htimeline
  obtain ⟨a, harrange, rfl⟩ := map_eq_ok.1 htrack
  have hmessages := messages_of_timeline htimeline
  rw [hsort] at hmessages
  exact ⟨a, _, _, harrange, hmessages, trackChunk_eq_ok.2 ⟨_, by cbv, by decide, rfl⟩, rfl⟩

theorem exists_toMidi_opening : ∃ bytes, opening.toMidi "opening.pat" Settings.standard = .ok bytes := by
  obtain ⟨a, timed, chunk, harrange, hmessages, hchunk, -⟩ := arrange_opening
  have hone : 1 ≤ maxTracks := by decide
  have hcount : [timed].length ≤ maxTracks := hone
  have hencoded := encodeFile_eq_ok.2 ⟨hcount, [chunk], mapM_eq_ok.2 (.cons hchunk .nil), rfl⟩
  have hall := mapM_eq_ok.2 (.cons hmessages .nil)
  exact ⟨_, (Pattern.toMidi_of_arrange harrange).trans (buildFile_eq_ok.2 ⟨_, hall, hencoded⟩)⟩

theorem check_standard : Options.check {} = .ok Settings.standard := by decide +kernel

/-- its notes overlap, and are balanced all the same -/
theorem balanced_opening : ∃ (timed : List (Timed Message)) (bytes : List UInt8),
    timed.map (·.message) = [.trackName "opening", .setTempo 500000, .timeSignature 1 eighths 24 8, .noteOn 0 38 102,
      .noteOn 0 38 102, .noteOn 0 38 76, .noteOff 0 38 76, .noteOff 0 38 102, .noteOff 0 38 102, .endOfTrack] ∧
    Balanced (timed.map (·.message)) ∧ opening.toMidi "opening.pat" Settings.standard = .ok bytes ∧
    decodeFile bytes = .ok ⟨0, 128, [timed.map Timed.inFile]⟩ := by
  obtain ⟨hbalanced, hwhole, hfile⟩ := balanced_messages
  obtain ⟨a, timed, _, harrange, htimed, -, rfl⟩ := arrange_opening
  obtain ⟨bytes, hwritten⟩ := exists_toMidi_opening
  obtain ⟨hevents, hbytes⟩ := hfile opening "opening.pat" {} Settings.standard a check_standard harrange
  obtain ⟨written, hmessages, -, -, hdecoded⟩ := hbytes bytes hwritten
  obtain rfl := Except.ok.inj (htimed.symm.trans hmessages)
  have hmetas := (metas_of_arrange check_standard harrange).1
  have hname : (Text.encode "opening.pat".toList).length ≤ longestData := by decide +kernel
  exact ⟨_, bytes, rfl, hbalanced a.track hmetas (hwhole a.track.events hevents) _ htimed, hwritten, hdecoded hname⟩

/-! ## A note far out -/

/-- a note of one tick, so far from the start that the tick after it is no double -/
def far : NoteEvent :=
  { pitches := [60], duration := 1, velocity := 100, tick := some (.double (.finite 9007199254740992)) }

/-- that every event lasts at least a whole tick does not balance a track: this note ends before it starts -/
theorem not_balanced_far :
    ¬∀ t : Track, (∀ m ∈ t.metas, m.rank = 0) → (∀ e ∈ t.events, ∃ ticks : Int, 1 ≤ ticks ∧ e.duration = .int ticks) →
      ∀ timed, t.messages = .ok timed → Balanced (timed.map (·.message)) := by
  intro h
  have htimeline : Track.timeline ⟨[], [far]⟩ = .ok [⟨.double (.finite 9007199254740992), .noteOn 0 60 127⟩,
      ⟨.double (.finite 9007199254740992), .noteOff 0 60 127⟩] := by decide +kernel
  have hsort : [Placed.mk (.double (.finite 9007199254740992)) (.noteOn 0 60 127),
      ⟨.double (.finite 9007199254740992), .noteOff 0 60 127⟩].mergeSort Placed.le =
        [⟨.double (.finite 9007199254740992), .noteOff 0 60 127⟩,
          ⟨.double (.finite 9007199254740992), .noteOn 0 60 127⟩] := by
    cbv
  have hdeltas : withDeltas 0 ([Placed.mk (.double (.finite 9007199254740992)) (.noteOn 0 60 127),
      ⟨.double (.finite 9007199254740992), .noteOff 0 60 127⟩].mergeSort Placed.le) =
        .ok [⟨.double (.finite 9007199254740992), .noteOff 0 60 127⟩, ⟨.double (.finite 0), .noteOn 0 60 127⟩] := by
    rw [hsort]
    decide +kernel
  have hmessages : Track.messages ⟨[], [far]⟩ = .ok [⟨.double (.finite 9007199254740992), .noteOff 0 60 127⟩,
      ⟨.double (.finite 0), .noteOn 0 60 127⟩, ⟨0, .endOfTrack⟩] :=
    bind_eq_ok.2 ⟨_, htimeline, bind_eq_ok.2 ⟨_, mapError_eq_ok.2 hdeltas, rfl⟩⟩
  have hlasts : ∀ e ∈ [far], ∃ ticks : Int, 1 ≤ ticks ∧ e.duration = .int ticks := by
    intro e he
    rw [List.mem_singleton.1 he]
    exact ⟨1, le_rfl, rfl⟩
  have hbalanced := h ⟨[], [far]⟩ (fun m hm => (List.not_mem_nil hm).elim) hlasts _ hmessages
  have hfirst := hbalanced.covered [.noteOff 0 60 127] ⟨_, rfl⟩ 0 60
  exact absurd hfirst (by decide)

end Drumline
