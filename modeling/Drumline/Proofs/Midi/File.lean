/-
How reading a file undoes writing it: `Reader.messages_encodeMessages` for the messages of a track, `Reader.reads_track`
for its chunk, and `decodeFile_of_encodeFile` for a whole file. When there is something to read, `trackChunk_eq_ok` and
`encodeFile_eq_ok` say: a chunk must not be too long, and there must be no more tracks than the header counts.
-/
import Drumline.Proofs.Except
import Drumline.Proofs.Midi.Reader

namespace Drumline.Midi

/-! ## Tracks -/

/-- a message of a drum track as it stands in a file -/
def Timed.inFile (timed : Timed Message) : Timed FileMessage := ⟨timed.delta, .drum timed.message⟩

theorem writtenTicks_eq_ok {delta : Number} {ticks : Nat} : writtenTicks delta = .ok ticks ↔ delta = .int ticks := by
  cases delta with
  | double d => simp [writtenTicks]
  | int n =>
    rw [writtenTicks]
    by_cases h : n < 0
    · rw [if_pos h]
      constructor
      · intro hticks
        cases hticks
      · intro hticks
        have := Number.int.inj hticks
        omega
    · rw [if_neg h]
      constructor
      · intro hticks
        cases hticks
        rw [Int.toNat_of_nonneg (by omega)]
      · intro hticks
        rw [Number.int.inj hticks, Int.toNat_natCast]

theorem encodeMessages_cons {running : Option UInt8} {timed : Timed Message} {rest : List (Timed Message)}
    {bytes : List UInt8} :
    encodeMessages running (timed :: rest) = .ok bytes ↔
      ∃ (ticks : Nat) (others : List UInt8), timed.delta = .int ticks ∧
        encodeMessages (timed.message.encode running).2 rest = .ok others ∧
        bytes = VariableLength.write ticks ++ (timed.message.encode running).1 ++ others := by
  rw [encodeMessages, bind_eq_ok]
  constructor
  · rintro ⟨ticks, hticks, h⟩
    obtain ⟨others, hothers, h⟩ := bind_eq_ok.1 h
    cases h
    exact ⟨ticks, others, writtenTicks_eq_ok.1 hticks, hothers, rfl⟩
  · rintro ⟨ticks, others, hticks, hothers, rfl⟩
    exact ⟨ticks, writtenTicks_eq_ok.2 hticks, bind_eq_ok.2 ⟨others, hothers, rfl⟩⟩

/-- messages are written if every delta is a natural number -/
theorem exists_encodeMessages {timed : List (Timed Message)} (h : ∀ t ∈ timed, ∃ ticks : Nat, t.delta = .int ticks)
    (running : Option UInt8) : ∃ bytes, encodeMessages running timed = .ok bytes := by
  induction timed generalizing running with
  | nil => exact ⟨[], rfl⟩
  | cons t rest ih =>
    obtain ⟨ticks, hticks⟩ := h t List.mem_cons_self
    obtain ⟨others, hothers⟩ := ih (fun t ht => h t (List.mem_cons_of_mem _ ht)) (t.message.encode running).2
    exact ⟨_, encodeMessages_cons.2 ⟨ticks, others, hticks, hothers, rfl⟩⟩

theorem Reader.messages_stop (fuel : Nat) (read : Option UInt8) (bytes : List UInt8) (position : Nat) :
    Reader.messages position fuel read ⟨bytes, position⟩ = .ok ([], ⟨bytes, position⟩) := by
  cases fuel with
  | zero =>
    show (if position = position then pure [] else throw .endOfData : Reader _) _ = _
    rw [if_pos rfl]
    rfl
  | succ fuel =>
    show (if position = position then pure [] else _ : Reader _) _ = _
    rw [if_pos rfl]
    rfl

theorem Reader.messages_succ {stop fuel : Nat} {read : Option UInt8} {bytes : List UInt8} {position : Nat}
    (h : position ≠ stop) :
    Reader.messages stop (fuel + 1) read ⟨bytes, position⟩ =
      (do
        let (message, running) ← Reader.timed read
        return message :: (← Reader.messages stop fuel running) : Reader _) ⟨bytes, position⟩ := by
  rw [Reader.messages]
  show (if position = stop then _ else _ : Reader _) _ = _
  rw [if_neg h]

/-- **The messages of a track.** Reading up to the end of what writing gives for some messages gives the messages. -/
theorem Reader.messages_encodeMessages {timed : List (Timed Message)} (h : ∀ t ∈ timed, t.message.Readable)
    {running read : Option UInt8} (hr : Agrees running read) {bytes : List UInt8}
    (hbytes : encodeMessages running timed = .ok bytes) {fuel : Nat} (hfuel : bytes.length ≤ fuel)
    (rest : List UInt8) (position : Nat) :
    Reader.messages (position + bytes.length) fuel read ⟨bytes ++ rest, position⟩ =
      .ok (timed.map Timed.inFile, ⟨rest, position + bytes.length⟩) := by
  induction timed generalizing running read bytes fuel position with
  | nil =>
    cases hbytes
    exact messages_stop fuel read rest position
  | cons t timed ih =>
    obtain ⟨ticks, others, hticks, hothers, rfl⟩ := encodeMessages_cons.1 hbytes
    obtain ⟨read', hr', htimed⟩ := reads_timed (h t List.mem_cons_self) hr ticks
    have hpos : 0 < (VariableLength.write ticks ++ (t.message.encode running).1).length := by
      rw [List.length_append, VariableLength.length_write]
      omega
    rw [List.length_append] at hfuel
    obtain ⟨fuel, rfl⟩ : ∃ k, fuel = k + 1 := ⟨fuel - 1, by omega⟩
    have hstop : position + ((VariableLength.write ticks ++ (t.message.encode running).1) ++ others).length =
        position + (VariableLength.write ticks ++ (t.message.encode running).1).length + others.length := by
      rw [List.length_append, Nat.add_assoc]
    rw [messages_succ (by omega), hstop, List.append_assoc _ others]
    show (Reader.timed read _ >>= fun x => (do
      return x.1.1 :: (← Reader.messages _ fuel x.1.2) : Reader _) x.2) = _
    rw [htimed]
    show (Reader.messages _ fuel read' _ >>= fun x => (pure (_ :: x.1) : Reader _) x.2) = _
    rw [ih (fun t ht => h t (List.mem_cons_of_mem _ ht)) hr' hothers (by omega), List.map_cons, Timed.inFile, hticks]
    rfl

theorem Reader.reads_chunkHeader {name : List UInt8} (hname : name.length = 4) {size : Nat} (hsize : size < 2 ^ 32) :
    Reader.Reads Reader.chunkHeader (name ++ bigEndian 4 size) (name, size) := by
  have hlength : (name ++ bigEndian 4 size).length = 8 := by rw [List.length_append, hname, length_bigEndian]
  have hvalue := foldl_bigEndian 4 size
  rw [Nat.mod_eq_of_lt (by omega)] at hvalue
  intro rest position
  unfold Reader.chunkHeader
  show (Reader.upTo 8 _ >>= fun x => (if x.1.length < 8 then throw .endOfData else
    pure (x.1.take 4, (x.1.drop 4).foldl (fun n b => n * 256 + b.toNat) 0) : Reader _) x.2) = _
  rw [Reader.reads_upTo _ hlength]
  generalize hheader : name ++ bigEndian 4 size = header at hlength
  show (if header.length < 8 then throw .endOfData else
    pure (header.take 4, (header.drop 4).foldl (fun n b => n * 256 + b.toNat) 0) : Reader _) _ = _
  rw [if_neg (by omega), ← hheader, List.take_left' hname, List.drop_left' hname, hvalue]
  rfl

theorem length_trackName : "MTrk".toUTF8.toList.length = 4 := by decide +kernel

theorem length_headerName : "MThd".toUTF8.toList.length = 4 := by decide +kernel

theorem trackChunk_eq_ok {timed : List (Timed Message)} {bytes : List UInt8} :
    trackChunk timed = .ok bytes ↔
      ∃ data, encodeMessages none timed = .ok data ∧ data.length ≤ longestChunk ∧ bytes = chunk "MTrk" data := by
  rw [trackChunk, bind_eq_ok]
  constructor
  · rintro ⟨data, hdata, h⟩
    by_cases hlong : longestChunk < data.length
    · rw [if_pos hlong] at h
      cases h
    · rw [if_neg hlong] at h
      cases h
      exact ⟨data, hdata, not_lt.1 hlong, rfl⟩
  · rintro ⟨data, hdata, hlong, rfl⟩
    refine ⟨data, hdata, ?_⟩
    rw [if_neg (not_lt.2 hlong)]
    rfl

/-- behind the front of a chunk, its messages are read up to its end -/
theorem Reader.track_chunk {data : List UInt8} (h : data.length ≤ longestChunk) (rest : List UInt8) (position : Nat) :
    Reader.track ⟨chunk "MTrk" data ++ rest, position⟩ =
      Reader.messages (position + 8 + data.length) (data ++ rest).length none ⟨data ++ rest, position + 8⟩ := by
  have hsize : data.length < 2 ^ 32 := by
    unfold longestChunk at h
    omega
  have hlength : ("MTrk".toUTF8.toList ++ bigEndian 4 data.length).length = 8 := by
    rw [List.length_append, length_trackName, length_bigEndian]
  have hheader := Reader.reads_chunkHeader length_trackName hsize (data ++ rest) position
  unfold Reader.track chunk
  rw [List.append_assoc _ data rest]
  show (Reader.chunkHeader _ >>= fun x => (do
    if x.1.1 ≠ "MTrk".toUTF8.toList then throw .noTrackHeader
    let start ← get
    messages (start.position + x.1.2) start.rest.length none : Reader _) x.2) = _
  rw [hheader, hlength]
  show (if "MTrk".toUTF8.toList ≠ "MTrk".toUTF8.toList then throw .noTrackHeader else (do
    let start ← get
    messages (start.position + data.length) start.rest.length none) : Reader _) _ = _
  rw [if_neg (not_not.2 rfl)]
  rfl

/-- **One track.** Reading takes the chunk of a track off the front and gives its messages. -/
theorem Reader.reads_track {timed : List (Timed Message)} (h : ∀ t ∈ timed, t.message.Readable) {bytes : List UInt8}
    (hbytes : trackChunk timed = .ok bytes) : Reader.Reads Reader.track bytes (timed.map Timed.inFile) := by
  obtain ⟨data, hdata, hlong, rfl⟩ := trackChunk_eq_ok.1 hbytes
  have hnone : Agrees none none := fun _ hs => hs
  have hlength : (chunk "MTrk" data).length = 8 + data.length := by
    rw [chunk, List.length_append, List.length_append, length_trackName, length_bigEndian]
  intro rest position
  rw [Reader.track_chunk hlong, hlength, ← Nat.add_assoc]
  exact Reader.messages_encodeMessages h hnone hdata (by rw [List.length_append]; omega) rest (position + 8)

theorem Reader.reads_tracks {tracks : List (List (Timed Message))} {chunks : List (List UInt8)}
    (h : ∀ track ∈ tracks, ∀ t ∈ track, t.message.Readable)
    (hchunks : List.Forall₂ (fun track bytes => trackChunk track = .ok bytes) tracks chunks) :
    Reader.Reads (Reader.tracks tracks.length) chunks.flatten (tracks.map (·.map Timed.inFile)) := by
  induction hchunks with
  | nil => exact Reads.pure []
  | cons hbytes _ ih =>
    rw [List.flatten_cons, List.length_cons, List.map_cons, ← List.append_nil (List.flatten _)]
    refine (Reader.reads_track (h _ List.mem_cons_self) hbytes).bind ?_
    exact (ih fun track ht => h track (List.mem_cons_of_mem _ ht)).bind (Reads.pure _)

/-! ## Files -/

def formatOf (tracks : Nat) : Nat := if tracks = 1 then 0 else 1

theorem signedPair_of_bigEndian (before : List UInt8) {after : List UInt8} {i n : Nat} (hi : before.length = i)
    (hn : n < 32768) :
    signedPair (before ++ bigEndian 2 n ++ after) i = n := by
  have hhigh : (UInt8.ofNat (n / 256)).toNat = n / 256 := Text.toNat_ofNat_of_lt (Nat.div_lt_of_lt_mul (by omega))
  have hlow : (UInt8.ofNat n).toNat = n % 256 := UInt8.toNat_ofNat'
  subst hi
  have hfirst : (before ++ bigEndian 2 n ++ after).getD before.length 0 = UInt8.ofNat (n / 256) := by
    simp [bigEndian_two, List.getD_eq_getElem?_getD]
  have hsecond : (before ++ bigEndian 2 n ++ after).getD (before.length + 1) 0 = UInt8.ofNat n := by
    simp [bigEndian_two, List.getD_eq_getElem?_getD]
  have hvalue : ((n / 256 : Nat) : Int) * 256 + (n % 256 : Nat) = n := by omega
  unfold signedPair
  simp only [hfirst, hsecond, hhigh, hlow, hvalue]
  apply Int.bmod_eq_of_le <;> omega

/-- the chunk in front of the tracks -/
def headerOf (tracks : Nat) : List UInt8 :=
  bigEndian 2 (formatOf tracks) ++ bigEndian 2 tracks ++ bigEndian 2 ticksPerBeat

theorem encodeFile_eq_ok {tracks : List (List (Timed Message))} {bytes : List UInt8} :
    encodeFile tracks = .ok bytes ↔ tracks.length ≤ maxTracks ∧
      ∃ chunks, tracks.mapM trackChunk = .ok chunks ∧
        bytes = chunk "MThd" (headerOf tracks.length) ++ chunks.flatten := by
  unfold encodeFile
  by_cases hcount : maxTracks < tracks.length
  · rw [if_pos hcount]
    constructor
    · intro h
      cases h
    · rintro ⟨hle, _⟩
      omega
  · rw [if_neg hcount]
    constructor
    · intro h
      obtain ⟨chunks, hchunks, h⟩ := bind_eq_ok.1 h
      cases h
      exact ⟨not_lt.1 hcount, chunks, hchunks, rfl⟩
    · rintro ⟨_, chunks, hchunks, rfl⟩
      exact bind_eq_ok.2 ⟨chunks, hchunks, rfl⟩

/-- the three numbers of a header are read as they were written -/
theorem signedPair_headerOf {tracks : Nat} (h : tracks ≤ maxTracks) :
    signedPair (headerOf tracks) 0 = formatOf tracks ∧ signedPair (headerOf tracks) 2 = tracks ∧
      signedPair (headerOf tracks) 4 = ticksPerBeat := by
  have hcount : tracks < 32768 := by
    unfold maxTracks at h
    omega
  have hformat : formatOf tracks < 32768 := by
    unfold formatOf
    split <;> omega
  unfold headerOf
  refine ⟨?_, signedPair_of_bigEndian _ (length_bigEndian 2 _) hcount, ?_⟩
  · rw [List.append_assoc]
    exact signedPair_of_bigEndian [] rfl hformat
  · rw [← List.append_nil (_ ++ _)]
    exact signedPair_of_bigEndian _ (by simp only [List.length_append, length_bigEndian]) (by decide)

theorem Reader.reads_file {tracks : List (List (Timed Message))} {chunks : List (List UInt8)}
    (hcount : tracks.length ≤ maxTracks) (h : ∀ track ∈ tracks, ∀ t ∈ track, t.message.Readable)
    (hchunks : tracks.mapM trackChunk = .ok chunks) :
    Reader.Reads File.read (chunk "MThd" (headerOf tracks.length) ++ chunks.flatten)
      ⟨formatOf tracks.length, ticksPerBeat, tracks.map (·.map Timed.inFile)⟩ := by
  obtain ⟨hformat, htracks, hticks⟩ := signedPair_headerOf hcount
  have hlength : (headerOf tracks.length).length = 6 := by
    simp only [headerOf, List.length_append, length_bigEndian]
  unfold chunk File.read
  rw [List.append_assoc _ (headerOf tracks.length)]
  refine (Reader.reads_chunkHeader length_headerName (by omega)).bind ?_
  show Reader.Reads (if "MThd".toUTF8.toList ≠ "MThd".toUTF8.toList then throw .noHeader else _) _ _
  rw [if_neg (not_not.2 rfl)]
  refine (Reader.reads_upTo _ rfl).bind ?_
  rw [if_neg (by omega), htracks, ← List.append_nil (List.flatten _)]
  refine (Reader.reads_tracks h (mapM_eq_ok.1 hchunks)).bind ?_
  rw [hformat, hticks]
  exact Reader.Reads.pure _

/-- **A whole file.** Reading what writing gives for some tracks gives the tracks. -/
theorem decodeFile_of_encodeFile {tracks : List (List (Timed Message))} {bytes : List UInt8}
    (h : ∀ track ∈ tracks, ∀ t ∈ track, t.message.Readable) (hbytes : encodeFile tracks = .ok bytes) :
    decodeFile bytes = .ok ⟨formatOf tracks.length, ticksPerBeat, tracks.map (·.map Timed.inFile)⟩ := by
  obtain ⟨hcount, chunks, hchunks, rfl⟩ := encodeFile_eq_ok.1 hbytes
  have hread := Reader.reads_file hcount h hchunks [] 0
  rw [List.append_nil] at hread
  rw [decodeFile, hread]
  rfl

end Drumline.Midi
