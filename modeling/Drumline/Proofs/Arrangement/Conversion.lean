/-
From the text of a pattern to its file and back: what is read from the file is the score of the pattern.

The stages meet here. What the parser says of a pattern's lengths (`parse_even`) lets its steps be looked up, checked
options give a beat that leaves room for grace notes (`exists_beat`), the arrangement has the events of the pattern
behind three meta messages (`arrange_eq`), and the messages of its track are these three, the score in order, and the
end (`messages_arranged`). `fitsChunk_arranged` says how many symbols are sure not to be too many for a file.

Main result: `toMidi_score`.
-/
import Drumline.Proofs.Arrangement.Score
import Drumline.Proofs.Midi.Size
import Drumline.Proofs.Options.Check
import Drumline.Proofs.Pattern.Grammar
import Drumline.Proofs.Track.RoundTrip

namespace Drumline

open Midi

/-! ## Model -/

/-- whether a beat is that of settings, with steps as a meter has them -/
structure Beat.Of (beat : Beat) (s : Settings) (meter : Meter) : Prop where
  step : tickDuration meter.code = .ok beat.step
  grace : tickDuration s.flamDuration = .ok beat.grace
  accent : s.accentVelocity = .int beat.accent
  normal : s.normalVelocity = .int beat.normal
  flam : s.flamVelocity = .int beat.flam
  noFlams : s.noFlams = beat.noFlams

/-- the messages of a track: meta messages at the start, notes, and the end -/
def framed (metas : List Message) (notes : List (Timed Message)) : List (Timed Message) :=
  metas.map (⟨0, ·⟩) ++ notes ++ [⟨0, .endOfTrack⟩]

/-- the name of the track of a file -/
def trackNameOf (name : String) : String := String.ofList (FileName.stripExtension name.toList)

/-! ## Settings -/

/-- the meter of a number of steps, and the beat of settings under it -/
theorem exists_beat {o : Options} {s : Settings} (hcheck : o.check = .ok s) (hwhole : s.Whole) (length : Int) :
    ∃ (meter : Meter) (beat : Beat), Meter.ofLength length s.noteDuration = .ok meter ∧
      (meter = ⟨length / 4, 4, meter.code⟩ ∨ meter = ⟨length, 8, meter.code⟩) ∧ beat.Of s meter ∧ beat.Valid ∧
      beat.step ≤ 1024 := by
  have hbounded := Options.check_bounded hcheck
  obtain ⟨_, hnote⟩ := hwhole.noteDuration
  obtain ⟨code, hcode, hnote⟩ := Settings.code_mem hnote hbounded.noteDuration
  obtain ⟨_, hgrace⟩ := hwhole.flamDuration
  obtain ⟨grace, hgraces, hgrace⟩ := Settings.code_mem hgrace hbounded.flamDuration
  obtain ⟨accent, haccent⟩ := hwhole.accentVelocity
  obtain ⟨normal, hnormal⟩ := hwhole.normalVelocity
  obtain ⟨flam, hflam⟩ := hwhole.flamVelocity
  obtain ⟨hticks, half, hhalf, hdouble⟩ := tickDuration_step hcode
  have hroom : ∀ code ∈ NoteLength.steps, ∀ grace ∈ NoteLength.graces,
      1 ≤ 512 / grace ∧ 512 / grace ≤ 512 / code ∧ 512 / grace ≤ 1024 / code := by decide
  obtain ⟨hpos, hle, hle'⟩ := hroom code hcode grace hgraces
  have hgraceTicks : tickDuration s.flamDuration = .ok (512 / grace : Nat) := by
    rw [hgrace]
    exact tickDuration_grace hgraces
  have hvalid (step : Nat) (h : 512 / grace ≤ step) :
      Beat.Valid ⟨step, (512 / grace : Nat), accent, normal, flam, s.noFlams⟩ :=
    ⟨Int.ofNat_le.2 hpos, Int.ofNat_le.2 h, Settings.velocity_bounds haccent hbounded.accentVelocity,
      Settings.velocity_bounds hnormal hbounded.normalVelocity, Settings.velocity_bounds hflam hbounded.flamVelocity⟩
  by_cases heights : length % 8 = 0
  · refine ⟨⟨length / 4, 4, .int code⟩, ⟨(512 / code : Nat), (512 / grace : Nat), accent, normal, flam, s.noFlams⟩, ?_,
      .inl rfl, ⟨hticks, hgraceTicks, haccent, hnormal, hflam, rfl⟩, hvalid _ hle, ?_⟩
    · rw [Meter.ofLength, if_pos heights, hnote]
    · show ((512 / code : Nat) : Int) ≤ 1024
      have := Nat.div_le_self 512 code
      omega
  · refine ⟨⟨length, 8, .double half⟩, ⟨(1024 / code : Nat), (512 / grace : Nat), accent, normal, flam, s.noFlams⟩, ?_,
      .inr rfl, ⟨hdouble, hgraceTicks, haccent, hnormal, hflam, rfl⟩, hvalid _ hle', ?_⟩
    · rw [Meter.ofLength, if_neg heights, hnote, hhalf]
      rfl
    · show ((1024 / code : Nat) : Int) ≤ 1024
      have := Nat.div_le_self 1024 code
      omega

theorem attributeUpTo_of_bounds {n : Nat} {value : Int} (h : 0 ≤ value ∧ value ≤ n) :
    attributeUpTo n (.int value) = .ok (wrapped n value) := by
  rw [attributeUpTo, toFin?_of_bounds h]
  rfl

/-- every tempo that is allowed can be set -/
theorem exists_setTempo {o : Options} {s : Settings} (hcheck : o.check = .ok s) :
    ∃ tempo : BeatLength, tempoOf s.bpm = .ok tempo ∧
      ∀ t : Track, t.setTempo s.bpm = .ok (t.addMeta (.setTempo tempo)) := by
  obtain ⟨hlow, hhigh⟩ := (Options.check_bounded hcheck).bpm
  obtain ⟨tempo, htempo, hbounds⟩ := tempoOf_bounds hlow hhigh
  have hfield := attributeUpTo_of_bounds (n := 0xFFFFFF) hbounds
  refine ⟨wrapped 0xFFFFFF tempo, ?_, fun t => ?_⟩
  · rw [val_wrapped hbounds, htempo]
  · unfold Track.setTempo
    rw [htempo]
    show ((attributeUpTo 0xFFFFFF (.int tempo)).mapError ScoreError.field >>= fun length => pure _) = _
    rw [hfield]
    rfl

theorem exists_denominator {n : Nat} (h : n = 4 ∨ n = 8) :
    ∃ d : Denominator, d.value = n ∧ Midi.denominator (.int n) = .ok d := by
  rcases h with rfl | rfl
  · let quarters : Denominator := ⟨4, 2, roundedLogTwo?_four⟩
    exact ⟨quarters, rfl, denominator_shiftLeft quarters (show 2 ≤ 255 by omega) rfl⟩
  · let eighths : Denominator := ⟨8, 3, roundedLogTwo?_eight⟩
    exact ⟨eighths, rfl, denominator_shiftLeft eighths (show 3 ≤ 255 by omega) rfl⟩

/-- a time signature in quarters or eighths can be set if its numerator is a byte -/
theorem exists_setTimeSignature {numerator : Int} {denominator : Nat} (hnumerator : 0 ≤ numerator ∧ numerator ≤ 255)
    (hdenominator : denominator = 4 ∨ denominator = 8) :
    ∃ (n : Fin 256) (d : Denominator), (n : Int) = numerator ∧ d.value = denominator ∧
      ∀ t : Track,
        t.setTimeSignature (.int numerator) (.int denominator) = .ok (t.addMeta (.timeSignature n d 24 8)) := by
  obtain ⟨d, hd, hdenominator⟩ := exists_denominator hdenominator
  have hfield := attributeUpTo_of_bounds (n := 255) hnumerator
  refine ⟨wrapped 255 numerator, d, val_wrapped hnumerator, hd, ?_⟩
  intro t
  unfold Track.setTimeSignature
  show ((attributeUpTo 255 (.int numerator)).mapError ScoreError.field >>= fun n =>
    (Midi.denominator (.int denominator)).mapError ScoreError.field >>= fun d => pure _) = _
  rw [hfield, hdenominator]
  rfl

/-! ## Names -/

/-- a name without its extension is the front of it -/
theorem stripExtension_prefix (name : FileName) : FileName.stripExtension name <+: name := by
  have hname (stem : List Char) (hstem : name.reverse.dropWhile (fun c => c ≠ '.' && c ≠ '/') = '.' :: stem) :
      stem.reverse <+: name := by
    have hsuffix : '.' :: stem <:+ name.reverse := hstem ▸ List.dropWhile_suffix _
    have hstem : stem <:+ name.reverse := (List.suffix_cons _ _).trans hsuffix
    rw [← List.reverse_suffix, List.reverse_reverse]
    exact hstem
  unfold FileName.stripExtension
  simp only
  split
  · rename_i stem hstem
    split
    · exact List.prefix_rfl
    · exact hname stem hstem
  · exact List.prefix_rfl

theorem length_encode_trackNameOf {name : String} (h : (Text.encode name.toList).length ≤ longestData) :
    (Text.encode (trackNameOf name).toList).length ≤ longestData := by
  obtain ⟨ending, hending⟩ := stripExtension_prefix name.toList
  rw [← hending, Text.encode, List.flatMap_append, List.length_append] at h
  rw [trackNameOf, String.toList_ofList, Text.encode]
  omega

/-! ## Arrangements -/

theorem parse_even {content : List Char} {p : Pattern} (h : (Pattern.parse content).result = .ok p) :
    p.Even ∧ 0 ≤ p.length := by
  obtain ⟨⟨entries, hentries, rfl⟩, -⟩ := exists_entries_of_parse h
  have hmeets := meets_of_entries hentries
  exact ⟨⟨fun _ hhit => hmeets.length_of_mem_hits hhit, hmeets.length_accents⟩, hmeets.length_nonneg⟩

namespace Pattern

variable {p : Pattern} {beat : Beat}

/-- the notes of a pattern in a file: its score in order, as messages -/
def notesOf (p : Pattern) (beat : Beat) : List (Timed Message) :=
  deltas 0 (((p.score beat).mergeSort Sounding.le).map Sounding.stamp)

/-- an arrangement has the events of the pattern behind three meta messages -/
theorem arrange_eq (hp : p.Even) (hbeat : beat.Valid) (name : String) {s : Settings} {meter : Meter}
    (hmeter : Meter.ofLength p.length s.noteDuration = .ok meter) (hof : beat.Of s meter) {tempo : BeatLength}
    (htempo : ∀ t : Track, t.setTempo s.bpm = .ok (t.addMeta (.setTempo tempo))) {n : Fin 256} {d : Denominator}
    (hsignature : ∀ t : Track, t.setTimeSignature (.int meter.numerator) (.int meter.denominator) =
      .ok (t.addMeta (.timeSignature n d 24 8))) :
    p.arrange name s = .ok ⟨⟨[.trackName (trackNameOf name), .setTempo tempo, .timeSignature n d 24 8],
      (p.arranged beat).map WholeEvent.toEvent⟩, meter⟩ := by
  have hfeel : (⟨beat.step, beat.grace, s.accentVelocity, s.normalVelocity, s.flamVelocity, s.noFlams⟩ : Feel) =
      beat.feel := by
    rw [hof.accent, hof.normal, hof.flam, hof.noFlams]
    rfl
  have hevents := events_eq hp hbeat
  rw [← hfeel] at hevents
  refine bind_eq_ok.2 ⟨_, htempo _, bind_eq_ok.2 ⟨meter, mapError_eq_ok.2 hmeter, ?_⟩⟩
  refine bind_eq_ok.2 ⟨_, hsignature _, bind_eq_ok.2 ⟨_, mapError_eq_ok.2 hof.step, ?_⟩⟩
  exact bind_eq_ok.2 ⟨_, mapError_eq_ok.2 hof.grace, bind_eq_ok.2 ⟨_, mapError_eq_ok.2 hevents, rfl⟩⟩

theorem toMidi_of_arrange {name : String} {s : Settings} {a : Arrangement} (h : p.arrange name s = .ok a) :
    p.toMidi name s = buildFile [a.track] := by
  rw [toMidi, h]
  rfl

theorem messages_arranged (hbeat : beat.Valid) (hnotes : p.InRange) {metas : List Message}
    (hmetas : ∀ m ∈ metas, m.rank = 0) :
    Track.messages ⟨metas, (p.arranged beat).map WholeEvent.toEvent⟩ = .ok (framed metas (p.notesOf beat)) := by
  have hscore := soundingsFrom_arranged (p := p) hbeat
  have hticks : ∀ s ∈ soundingsFrom 0 (p.arranged beat), 0 ≤ s.tick := by
    intro s hs
    rw [hscore] at hs
    exact tick_nonneg_of_mem_score hbeat hs
  rw [messages_eq _ (playable_of_mem_arranged hbeat hnotes), mergeSort_stampsOf hmetas hticks, deltas_append, hscore]
  rfl

/-- an arrangement sounds from the start on -/
theorem sounds_arranged (hbeat : beat.Valid) (hnotes : p.InRange) {metas : List Message}
    (hmetas : ∀ m ∈ metas, m.rank = 0 ∧ m.Readable ∧ m ≠ .endOfTrack) :
    Track.Sounds ⟨metas, (p.arranged beat).map WholeEvent.toEvent⟩ := by
  refine ⟨p.arranged beat, ⟨rfl, playable_of_mem_arranged hbeat hnotes, hmetas⟩, ?_⟩
  intro s hs
  rw [soundingsFrom_arranged hbeat] at hs
  exact tick_nonneg_of_mem_score hbeat hs

/-- what is heard of the notes of an arrangement is its score in order -/
theorem heard?_score (hbeat : beat.Valid) (hnotes : p.InRange) :
    heard? 0 (p.notesOf beat) = some ((p.score beat).mergeSort Sounding.le) := by
  refine heard?_deltas fun s hs => ?_
  rw [List.mem_mergeSort, ← soundingsFrom_arranged hbeat] at hs
  exact fits_of_mem_soundingsFrom (playable_of_mem_arranged hbeat hnotes) hs

/-- the notes of a pattern have short deltas and are no names -/
theorem short_of_mem_notesOf (hbeat : beat.Valid) (hstep : beat.step ≤ 1024) (hlength : p.length < 1024)
    {m : Timed Message} (hm : m ∈ p.notesOf beat) :
    (∀ ticks : Nat, m.delta = .int ticks → ticks < 128 ^ (2 + 1)) ∧ ∀ name, m.message ≠ .trackName name := by
  have hpos := hbeat.grace_pos
  have hle := hbeat.grace_le
  have hend : ((p.length.toNat : Int) + 1) * beat.step ≤ 1024 * 1024 :=
    Int.mul_le_mul (by omega) hstep (by omega) (by omega)
  have hstamps : ∀ s ∈ ((p.score beat).mergeSort Sounding.le).map Sounding.stamp,
      (0 ≤ s.tick ∧ s.tick < (p.length.toNat + 1) * beat.step) ∧ ∀ name, s.message ≠ .trackName name := by
    intro s hs
    obtain ⟨sounding, hsounding, rfl⟩ := List.mem_map.1 hs
    have hscore := List.mem_mergeSort.1 hsounding
    refine ⟨⟨tick_nonneg_of_mem_score hbeat hscore, tick_lt_of_mem_score hbeat hscore⟩, ?_⟩
    intro name
    show sounding.message ≠ _
    unfold Sounding.message
    cases sounding.starts with
    | true => exact Message.noConfusion
    | false => exact Message.noConfusion
  refine ⟨fun ticks hticks => ?_, ?_⟩
  · have := delta_lt_of_mem_deltas le_rfl (fun s hs => (hstamps s hs).1) hm hticks
    omega
  · obtain ⟨s, hs, hmessage⟩ := message_of_mem_deltas hm
    rw [hmessage]
    exact (hstamps s hs).2

/-- the chunk of an arrangement is not too long if the pattern has at most a hundred million symbols, and the meta
messages take at most two million bytes -/
theorem fitsChunk_arranged (hbeat : beat.Valid) (hstep : beat.step ≤ 1024) (hnotes : p.InRange)
    (hlength : p.length < 1024) (hsize : p.hits.length * p.length.toNat ≤ 10 ^ 8) {metas : List Message}
    (hmetas : ∀ m ∈ metas, m.rank = 0) (hmetasSize : (metas.map fun m => 2 + 1 + m.size).sum ≤ 2 * 10 ^ 6) :
    Track.FitsChunk ⟨metas, (p.arranged beat).map WholeEvent.toEvent⟩ := by
  intro timed data htimed hdata
  obtain rfl := Except.ok.inj ((messages_arranged hbeat hnotes hmetas).symm.trans htimed)
  have hcount : (p.notesOf beat).length ≤ p.length.toNat * (4 * p.hits.length) := by
    rw [notesOf, length_deltas, List.length_map, List.length_mergeSort]
    exact length_score_le p beat
  have hzero (m : Message) (ticks : Nat) (hticks : (⟨0, m⟩ : Timed Message).delta = .int ticks) :
      ticks < 128 ^ (2 + 1) := by
    have : (0 : Int) = ticks := Number.int.inj hticks
    omega
  have hticks : ∀ m ∈ framed metas (p.notesOf beat), ∀ ticks : Nat, m.delta = .int ticks → ticks < 128 ^ (2 + 1) := by
    intro m hm
    rcases List.mem_append.1 hm with hm | hm
    · rcases List.mem_append.1 hm with hm | hm
      · obtain ⟨message, -, rfl⟩ := List.mem_map.1 hm
        exact hzero message
      · exact (short_of_mem_notesOf hbeat hstep hlength hm).1
    · rw [List.mem_singleton.1 hm]
      exact hzero .endOfTrack
  have hnotesSize : ((p.notesOf beat).map fun m => 2 + 1 + m.message.size).sum ≤ (p.notesOf beat).length * 10 := by
    refine le_trans (List.sum_le_card_nsmul _ 10 fun size hmem => ?_) ?_
    · obtain ⟨m, hm, rfl⟩ := List.mem_map.1 hmem
      have := Message.size_le (short_of_mem_notesOf hbeat hstep hlength hm).2
      omega
    · rw [List.length_map, smul_eq_mul]
  have hendSize : Message.endOfTrack.size ≤ 7 := Message.size_le fun _ => Message.noConfusion
  have hbytes := length_encodeMessages_le hticks hdata
  rw [framed, List.map_append, List.map_append, List.sum_append, List.sum_append, List.map_map, List.map_singleton,
    List.sum_singleton] at hbytes
  have hproduct : p.length.toNat * (4 * p.hits.length) = 4 * (p.hits.length * p.length.toNat) := by ring
  have hmetasBytes : data.length ≤ (metas.map fun m => 2 + 1 + m.size).sum + _ + (2 + 1 + Message.endOfTrack.size) :=
    hbytes
  omega

end Pattern

/-! ## From text to file and back -/

/-- **From text to file and back.** Settings whose codes and velocities are whole give every pattern that is read a
meter and a beat. If the numerator is a byte and the notes that sound are data bytes, the pattern can be arranged, and
its file is written, unless its chunk is too long, which takes more than a hundred million symbols. The file has one
track: its name, its tempo and its time signature at the start, then the score of the pattern in order, and the end. -/
theorem toMidi_score {content : List Char} {p : Pattern} (hparse : (Pattern.parse content).result = .ok p)
    {name : String} (hname : (Text.encode name.toList).length ≤ longestData) {o : Options} {s : Settings}
    (hcheck : o.check = .ok s) (hwhole : s.Whole) :
    ∃ (meter : Meter) (beat : Beat), Meter.ofLength p.length s.noteDuration = .ok meter ∧ beat.Of s meter ∧
      (meter.numerator ≤ 255 → p.InRange →
        ∃ (tempo : BeatLength) (numerator : Fin 256) (denominator : Denominator) (notes messages : List (Timed Message))
          (track : Track),
          tempoOf s.bpm = .ok (tempo : BeatLength) ∧ (numerator : Int) = meter.numerator ∧
          denominator.value = meter.denominator ∧ heard? 0 notes = some ((p.score beat).mergeSort Sounding.le) ∧
          messages = framed [.trackName (trackNameOf name), .setTempo tempo, .timeSignature numerator denominator 24 8]
            notes ∧
          p.arrange name s = .ok ⟨track, meter⟩ ∧
          (p.hits.length * p.length.toNat ≤ 10 ^ 8 → track.FitsChunk) ∧
          (¬track.FitsChunk → p.toMidi name s = .error (.write .chunkTooLong)) ∧
          (track.FitsChunk → ∃ bytes, p.toMidi name s = .ok bytes ∧
            decodeFile bytes = .ok ⟨0, 128, [messages.map Timed.inFile]⟩ ∧
            (decodeFile bytes).map File.listing = .ok (.record [
              ("header", .record [("format", .int 0), ("numTracks", .int 1), ("ticksPerBeat", .int 128)]),
              ("tracks", .list [.list (messages.map (Timed.listing Message.fields))])]))) := by
  obtain ⟨heven, hlength⟩ := parse_even hparse
  obtain ⟨meter, beat, hmeter, hform, hof, hbeat, hstep⟩ := exists_beat hcheck hwhole p.length
  refine ⟨meter, beat, hmeter, hof, ?_⟩
  intro hnumerator hnotes
  have hbounds : 0 ≤ meter.numerator ∧ (meter.denominator = 4 ∨ meter.denominator = 8) ∧ p.length < 1024 := by
    rcases hform with hform | hform
    · rw [hform] at hnumerator ⊢
      have hquarters : p.length / 4 ≤ 255 := hnumerator
      exact ⟨Int.ediv_nonneg hlength (by omega), .inl rfl, by omega⟩
    · rw [hform] at hnumerator ⊢
      have heighths : p.length ≤ 255 := hnumerator
      exact ⟨hlength, .inr rfl, by omega⟩
  obtain ⟨hnonneg, hdenominator, hshort⟩ := hbounds
  obtain ⟨tempo, htempo, hset⟩ := exists_setTempo hcheck
  obtain ⟨n, d, hn, hd, hsignature⟩ := exists_setTimeSignature ⟨hnonneg, hnumerator⟩ hdenominator
  have harrange := Pattern.arrange_eq heven hbeat name hmeter hof hset hsignature
  have hname := length_encode_trackNameOf hname
  have hmetas : ∀ m ∈ [Message.trackName (trackNameOf name), .setTempo tempo, .timeSignature n d 24 8],
      m.rank = 0 ∧ m.Readable ∧ m ≠ .endOfTrack := by
    intro m hm
    simp only [List.mem_cons, List.not_mem_nil, or_false] at hm
    rcases hm with rfl | rfl | rfl
    · exact ⟨rfl, hname, Message.noConfusion⟩
    · exact ⟨rfl, trivial, Message.noConfusion⟩
    · exact ⟨rfl, Denominator.readable (hd ▸ hdenominator), Message.noConfusion⟩
  have hranks := fun m hm => (hmetas m hm).1
  have hsounds := Pattern.sounds_arranged hbeat hnotes hmetas
  have hall (P : Track → Prop) {t : Track} (h : P t) : ∀ t' ∈ [t], P t' := fun _ ht => List.mem_singleton.1 ht ▸ h
  have hcount : 1 ≤ maxTracks := by decide
  have hwritten := Pattern.toMidi_of_arrange harrange
  refine ⟨tempo, n, d, _, _, _, htempo, hn, hd, Pattern.heard?_score hbeat hnotes, rfl, harrange, fun hsize => ?_,
    fun hlong => hwritten.trans ?_, fun hfits => ?_⟩
  · refine Pattern.fitsChunk_arranged hbeat hstep hnotes hshort hsize hranks ?_
    have hnamed := Message.size_trackName_le hname
    have htempoSize := Message.size_le (m := .setTempo tempo) fun _ => Message.noConfusion
    have hsignatureSize := Message.size_le (m := .timeSignature n d 24 8) fun _ => Message.noConfusion
    rw [List.map_cons, List.map_cons, List.map_singleton, List.sum_cons, List.sum_cons, List.sum_singleton]
    unfold longestData at hnamed
    omega
  · exact buildFile_of_chunkTooLong hcount (hall _ hsounds) ⟨_, List.mem_singleton_self _, hlong⟩
  · obtain ⟨_, bytes, _, hbytes⟩ :=
      exists_buildFile (show [_].length ≤ maxTracks from hcount) (hall _ hsounds) (hall _ hfits)
    have hmessages := mapM_eq_ok.2 (.cons (Pattern.messages_arranged hbeat hnotes hranks) .nil)
    have hdecoded := decodeFile_of_buildFile (hall _ hsounds) hmessages hbytes
    refine ⟨bytes, hwritten.trans hbytes, hdecoded, ?_⟩
    rw [hdecoded]
    exact congrArg Except.ok (listing_inFile 0 [_])

/-! ## One line -/

def snare : Pattern := ⟨[⟨38, ['f', '-', 'x', '-']⟩], [], 4⟩

theorem score_snare : (snare.score ⟨64, 8, 100, 80, 60, false⟩).mergeSort Sounding.le =
    [⟨0, true, 0, 38, 102⟩, ⟨8, true, 0, 38, 76⟩, ⟨15, false, 0, 38, 76⟩, ⟨64, false, 0, 38, 102⟩,
      ⟨128, true, 0, 38, 102⟩, ⟨192, false, 0, 38, 102⟩] := by
  cbv

/-- what is heard of it in its file, with the default options -/
theorem toMidi_snare :
    ∃ (bytes : List UInt8) (tempo : BeatLength) (n : Fin 256) (d : Denominator) (notes : List (Timed Message)),
      snare.toMidi "snare.pat" Settings.standard = .ok bytes ∧
      (decodeFile bytes).map (·.tracks) =
        .ok [(framed [.trackName "snare", .setTempo tempo, .timeSignature n d 24 8] notes).map Timed.inFile] ∧
      (n : Int) = 4 ∧ d.value = 8 ∧ heard? 0 notes = some
        [⟨0, true, 0, 38, 102⟩, ⟨8, true, 0, 38, 76⟩, ⟨15, false, 0, 38, 76⟩, ⟨64, false, 0, 38, 102⟩,
          ⟨128, true, 0, 38, 102⟩, ⟨192, false, 0, 38, 102⟩] := by
  have hparse : (Pattern.parse "SD f-x-".toList).result = .ok snare := by decide +kernel
  have hname : (Text.encode "snare.pat".toList).length ≤ longestData := by decide +kernel
  have hcheck : Options.check {} = .ok Settings.standard := by decide +kernel
  have hwhole : Settings.standard.Whole := ⟨⟨_, rfl⟩, ⟨_, rfl⟩, ⟨_, rfl⟩, ⟨_, rfl⟩, ⟨_, rfl⟩⟩
  obtain ⟨meter, beat, hmeter, hof, h⟩ := toMidi_score hparse hname hcheck hwhole
  have heighths : Meter.ofLength snare.length Settings.standard.noteDuration = .ok ⟨4, 8, .double (.finite 8)⟩ := by
    decide +kernel
  obtain rfl := Except.ok.inj (heighths.symm.trans hmeter)
  have hbeat : beat = ⟨64, 8, 100, 80, 60, false⟩ := by
    have hstep : tickDuration (.double (.finite 8)) = .ok 64 := by decide +kernel
    have hgrace : tickDuration Settings.standard.flamDuration = .ok 8 := by decide +kernel
    obtain ⟨step, grace, accent, normal, flam, noFlams⟩ := beat
    obtain rfl := Except.ok.inj (hstep.symm.trans hof.step)
    obtain rfl := Except.ok.inj (hgrace.symm.trans hof.grace)
    obtain rfl := Number.int.inj hof.accent
    obtain rfl := Number.int.inj hof.normal
    obtain rfl := Number.int.inj hof.flam
    obtain rfl := hof.noFlams
    rfl
  have hnotes : snare.InRange := by
    intro hit hhit _
    rw [List.mem_singleton.1 hhit]
    decide
  obtain ⟨tempo, n, d, notes, _, track, -, hn, hd, hheard, rfl, -, hfits, -, hwritten⟩ := h (by decide) hnotes
  obtain ⟨bytes, hbytes, hdecoded, -⟩ := hwritten (hfits (by decide))
  rw [hbeat, score_snare] at hheard
  refine ⟨bytes, tempo, n, d, notes, hbytes, ?_, hn, hd, hheard⟩
  rw [hdecoded]
  rfl

end Drumline
