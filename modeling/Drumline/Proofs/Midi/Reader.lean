/-
How the readers of a file undo what the writer does, up to one message with the ticks before it.

A reader is said to read some bytes as a value (`Reader.Reads`) if it takes exactly these bytes off the front, whatever
follows them. The relation is closed under sequencing, so what a format writes piece by piece is read piece by piece.

Main result: `Reader.reads_timed`. The bytes of a message are read as that message. The writer leaves a status byte out
where the channel message before had the same; `Agrees` says that the reader knows it then, and each message keeps that.
-/
import Drumline.Midi.Decode
import Drumline.Midi.Encode
import Drumline.Proofs.Text.Encoding
import Mathlib.Tactic

namespace Drumline.Midi

/-! ## Readers -/

namespace Reader

variable {α β : Type}

/-- a reader takes exactly these bytes off the front, whatever follows them, and gives a value -/
def Reads (read : Reader α) (bytes : List UInt8) (a : α) : Prop :=
  ∀ (rest : List UInt8) (position : Nat), read ⟨bytes ++ rest, position⟩ = .ok (a, ⟨rest, position + bytes.length⟩)

theorem Reads.pure (a : α) : Reads (Pure.pure a) [] a := fun _ _ => rfl

theorem Reads.bind {read : Reader α} {next : α → Reader β} {l m : List UInt8} {a : α} {b : β} (h : Reads read l a)
    (hnext : Reads (next a) m b) : Reads (read >>= next) (l ++ m) b := by
  intro rest position
  show (read ⟨l ++ m ++ rest, position⟩ >>= fun x => next x.1 x.2) = _
  rw [List.append_assoc, h]
  show next a ⟨m ++ rest, position + l.length⟩ = _
  rw [hnext, List.length_append, Nat.add_assoc]

theorem reads_byte (b : UInt8) : Reads byte [b] b := fun _ _ => rfl

theorem reads_upTo {count : Nat} (bytes : List UInt8) (h : bytes.length = count) : Reads (upTo count) bytes bytes := by
  intro rest position
  subst h
  simp [upTo]

theorem reads_data {length : Nat} (bytes : List UInt8) (h : bytes.length = length) (hlong : length ≤ longestData) :
    Reads (data length) bytes bytes := by
  intro rest position
  unfold data
  rw [if_neg (by omega)]
  show (upTo length ⟨bytes ++ rest, position⟩ >>= fun x =>
    (if x.1.length < length then throw .endOfData else pure x.1 : Reader _) x.2) = _
  rw [reads_upTo bytes h]
  show (if bytes.length < length then throw .endOfData else pure bytes : Reader _) _ = _
  rw [if_neg (by omega)]
  rfl

end Reader

/-! ## Numbers -/

theorem VariableLength.le_of_mem_continued {n : Nat} {b : UInt8} (h : b ∈ VariableLength.continued n) : 128 ≤ b := by
  induction n using Nat.strongRecOn with
  | ind n ih =>
    rw [VariableLength.continued] at h
    split at h
    · simp at h
    · rcases List.mem_append.1 h with h | h
      · exact ih _ (by omega) h
      · rw [List.mem_singleton] at h
        subst h
        have hb : (UInt8.ofNat (n % 128 + 128)).toNat = n % 128 + 128 := by
          simp only [UInt8.toNat_ofNat']
          omega
        rw [UInt8.le_iff_toNat_le, hb]
        show 128 ≤ _
        omega

theorem VariableLength.length_write (n : Nat) : (write n).length = (continued (n / 128)).length + 1 := by
  simp [write]

theorem VariableLength.takeWhile_write (n : Nat) (rest : List UInt8) :
    (write n ++ rest).takeWhile (128 ≤ ·) = continued (n / 128) := by
  have hlast : ¬128 ≤ UInt8.ofNat (n % 128) := by
    have hb : (UInt8.ofNat (n % 128)).toNat = n % 128 := by
      simp only [UInt8.toNat_ofNat']
      omega
    rw [UInt8.le_iff_toNat_le, hb]
    show ¬128 ≤ _
    omega
  rw [write, List.append_assoc, List.takeWhile_append_of_pos fun b hb => by simpa using le_of_mem_continued hb]
  simp [hlast]

theorem Reader.reads_quantity (n : Nat) : Reader.Reads Reader.quantity (VariableLength.write n) n := by
  intro rest position
  simp only [Reader.quantity, VariableLength.read_write, VariableLength.takeWhile_write, VariableLength.length_write]
  rfl

theorem length_bigEndian (count n : Nat) : (bigEndian count n).length = count := by
  induction count generalizing n with
  | zero => rfl
  | succ count ih => simp [bigEndian, ih]

/-- the value of the bytes of a number, as far as they have room for it -/
theorem foldl_bigEndian (count n : Nat) :
    (bigEndian count n).foldl (fun value (b : UInt8) => value * 256 + b.toNat) 0 = n % 256 ^ count := by
  induction count generalizing n with
  | zero => simp [bigEndian, Nat.mod_one]
  | succ count ih =>
    have hmod : n % (256 * 256 ^ count) = n % 256 + 256 * (n / 256 % 256 ^ count) := Nat.mod_mul
    rw [Nat.pow_succ', hmod, bigEndian, List.foldl_append, ih, List.foldl_cons, List.foldl_nil, UInt8.toNat_ofNat']
    omega

theorem bigEndian_two (n : Nat) : bigEndian 2 n = [UInt8.ofNat (n / 256), UInt8.ofNat n] := rfl

/-! ## Messages -/

/-- whether a message is one that a reader makes: a name has to be short enough, and a denominator has to be the power
of two that is written for it -/
def Message.Readable : Message → Prop
  | .trackName name => (Text.encode name.toList).length ≤ longestData
  | .timeSignature _ denominator _ _ => denominator.exponent ≤ 255 ∧ denominator.value = 2 ^ denominator.exponent
  | _ => True

theorem Reader.reads_timedMeta (ticks : Nat) (type : UInt8) (data : List UInt8) (message : Message)
    (hlong : data.length ≤ longestData) (h : readMeta type data = .ok (.drum message)) :
    Reader.Reads (Reader.timedMeta ticks) (type :: VariableLength.write data.length ++ data)
      ⟨.int ticks, .drum message⟩ := by
  have hbytes : type :: VariableLength.write data.length ++ data =
      [type] ++ (VariableLength.write data.length ++ (data ++ [])) := by simp
  rw [hbytes]
  refine (Reader.reads_byte type).bind ((Reader.reads_quantity _).bind ((Reader.reads_data data rfl hlong).bind ?_))
  intro rest position
  rw [h]
  rfl

theorem readMeta_trackName (name : String) :
    readMeta 0x03 (Text.encode name.toList) = .ok (.drum (.trackName name)) := by
  have h : metaText (Text.encode name.toList) = .ok name := by
    simp only [metaText, Text.decode, Text.decodeFrom_encode, String.ofList_toList]
  show (metaText (Text.encode name.toList) >>= fun text => pure (FileMessage.drum (.trackName text))) = _
  rw [h]
  rfl

theorem readMeta_setTempo (tempo : BeatLength) : readMeta 0x51 (bigEndian 3 tempo) = .ok (.drum (.setTempo tempo)) := by
  have hvalue : (UInt8.ofNat (tempo / 256 / 256)).toNat * 65536 + (UInt8.ofNat (tempo / 256)).toNat * 256 +
      (UInt8.ofNat tempo).toNat = tempo := by
    have := tempo.isLt
    simp only [UInt8.toNat_ofNat']
    omega
  show Except.ok (FileMessage.drum (.setTempo (Fin.ofNat 0x1000000 ((UInt8.ofNat (tempo / 256 / 256)).toNat * 65536 +
    (UInt8.ofNat (tempo / 256)).toNat * 256 + (UInt8.ofNat tempo).toNat)))) = _
  rw [hvalue, Fin.ofNat_val_eq_self]

theorem readMeta_endOfTrack : readMeta 0x2F [] = .ok (.drum .endOfTrack) := rfl

theorem Denominator.ofNat?_value (d : Denominator) : Denominator.ofNat? d.value = some d := by
  obtain ⟨value, exponent, rounded⟩ := d
  unfold Denominator.ofNat?
  split
  · rename_i k hk
    obtain rfl : k = exponent := Option.some.inj (hk.symm.trans rounded)
    rfl
  · rename_i hk
    rw [hk] at rounded
    cases rounded

/-- the power of two that is written for a denominator gives it back -/
theorem denominator_shiftLeft (d : Denominator) (h : d.exponent ≤ 255) (hd : d.value = 2 ^ d.exponent) :
    denominator (.int (1 <<< d.exponent : Nat)) = .ok d := by
  have hlow : 1 ≤ d.value := hd ▸ Nat.one_le_two_pow
  have hhigh : d.value ≤ Denominator.greatest := by
    rw [hd, Denominator.greatest, Nat.one_shiftLeft]
    exact Nat.pow_le_pow_right (by omega) h
  rw [Nat.one_shiftLeft, ← hd, denominator, if_neg (by omega), Int.toNat_natCast, Denominator.ofNat?_value]
  rfl

theorem readMeta_timeSignature (numerator clocks thirtySeconds : Fin 256) (d : Denominator) (h : d.exponent ≤ 255)
    (hd : d.value = 2 ^ d.exponent) :
    readMeta 0x58 [UInt8.ofNat numerator, UInt8.ofNat d.exponent, UInt8.ofNat clocks, UInt8.ofNat thirtySeconds] =
      .ok (.drum (.timeSignature numerator d clocks thirtySeconds)) := by
  have hfin (n : Fin 256) : (UInt8.ofNat n).toFin = n := by
    apply Fin.ext
    show (UInt8.ofNat n).toNat = n
    exact Text.toNat_ofNat_of_lt n.isLt
  have hexponent : (UInt8.ofNat d.exponent).toNat = d.exponent := Text.toNat_ofNat_of_lt (by omega)
  have hdenominator := denominator_shiftLeft d h hd
  unfold readMeta
  simp only [metaByte, List.getElem?_cons_zero, List.getElem?_cons_succ, Option.elim_some]
  simp only [bind, Except.bind, hexponent, hdenominator, hfin, pure, Except.pure]

/-- the status bytes of the start and the end of a note -/
theorem toNat_status {n : Nat} (channel : Channel) (h : n ≤ 0xF0) : (UInt8.ofNat (n + channel)).toNat = n + channel :=
  Text.toNat_ofNat_of_lt (by omega)

theorem toDataByte?_ofNat (b : DataByte) : toDataByte? (UInt8.ofNat b) = some b := by
  have hb : (UInt8.ofNat b).toNat = b := Text.toNat_ofNat_of_lt (by omega)
  simp only [toDataByte?, hb, b.isLt, dif_pos]

theorem not_lt_of_status {status : UInt8} (h : status.toNat / 16 = 8 ∨ status.toNat / 16 = 9) : ¬status < 0x80 := by
  rw [UInt8.lt_iff_toNat_lt]
  show ¬status.toNat < 128
  omega

/-- the reader of a channel message of two data bytes, of which some are read already -/
theorem Reader.reads_short {status : UInt8} {first others : List UInt8} {note velocity : DataByte}
    {message : Message} (hstatus : status.toNat / 16 = 8 ∨ status.toNat / 16 = 9)
    (hdata : first ++ others = [UInt8.ofNat note, UInt8.ofNat velocity])
    (h : shortMessage status [note, velocity] = .ok (.drum message)) :
    Reader.Reads (Reader.short status first) others (.drum message) := by
  have hcount : dataCount? status = some 2 := by
    unfold dataCount?
    rcases hstatus with h | h <;> simp only [h]
  have hlength : first.length + others.length = 2 := by
    rw [← List.length_append, hdata]
    rfl
  have hmap : (first ++ others).mapM toDataByte? = some [note, velocity] := by
    simp [hdata, toDataByte?_ofNat]
  have hread : Reader.Reads (Reader.data (2 - first.length)) others others :=
    Reader.reads_data others (by omega) (by unfold longestData; omega)
  unfold Reader.short
  rw [hcount]
  refine List.append_nil others ▸ hread.bind ?_
  rw [hmap]
  show Reader.Reads (liftM (shortMessage status [note, velocity])) [] (.drum message)
  rw [h]
  exact Reader.Reads.pure _

/-- the status byte that a reader has to know where the writer leaves one out -/
def Agrees (written read : Option UInt8) : Prop := ∀ status, written = some status → read = some status

theorem Reader.reads_timed_meta (running : Option UInt8) (ticks : Nat) (type : UInt8) (data : List UInt8)
    (message : Message) (hlong : data.length ≤ longestData) (h : readMeta type data = .ok (.drum message)) :
    Reader.Reads (Reader.timed running) (VariableLength.write ticks ++ metaBytes type data)
      (⟨.int ticks, .drum message⟩, running) := by
  have hbytes : metaBytes type data = [0xFF] ++ ([] ++ ((type :: VariableLength.write data.length ++ data) ++ [])) := by
    simp [metaBytes]
  rw [hbytes]
  unfold Reader.timed
  refine (Reader.reads_quantity ticks).bind ((Reader.reads_byte 0xFF).bind ?_)
  refine Reads.bind (a := (0xFF, [])) (Reads.pure _) ?_
  refine Reads.bind (Reader.reads_timedMeta ticks type data message hlong h) ?_
  exact Reads.pure _

/-- what is left to read of a channel message once its status is known -/
theorem Reader.reads_timed_tail {status : UInt8} {first others : List UInt8} {note velocity : DataByte}
    {message : Message} (read : Option UInt8) (ticks : Nat)
    (hstatus : status.toNat / 16 = 8 ∨ status.toNat / 16 = 9)
    (hdata : first ++ others = [UInt8.ofNat note, UInt8.ofNat velocity])
    (h : shortMessage status [note, velocity] = .ok (.drum message)) :
    Reader.Reads (do
      let running := if status = 0xFF then read else some status
      if status = 0xFF then return (← Reader.timedMeta ticks, running)
      let message ← if status = 0xF0 ∨ status = 0xF7 then Reader.exclusive else Reader.short status first
      return (⟨.int ticks, message⟩, running)) others (⟨.int ticks, .drum message⟩, some status) := by
  have hne (high : UInt8) (hhigh : high.toNat / 16 = 15) : status ≠ high := by
    rintro rfl
    omega
  simp only [if_neg (hne 0xFF rfl), if_neg (not_or.2 ⟨hne 0xF0 rfl, hne 0xF7 rfl⟩)]
  rw [← List.append_nil others]
  exact (Reader.reads_short hstatus hdata h).bind (Reads.pure _)

theorem Reader.reads_timed_channel {running read : Option UInt8} (hr : Agrees running read) (ticks : Nat)
    {status : UInt8} {note velocity : DataByte} {message : Message}
    (hstatus : status.toNat / 16 = 8 ∨ status.toNat / 16 = 9)
    (h : shortMessage status [note, velocity] = .ok (.drum message)) :
    Reader.Reads (Reader.timed read)
      (VariableLength.write ticks ++ (channelBytes running status [UInt8.ofNat note, UInt8.ofNat velocity]).1)
      (⟨.int ticks, .drum message⟩, some status) := by
  unfold Reader.timed
  refine (Reader.reads_quantity ticks).bind ?_
  by_cases hrun : running = some status
  · have hlt : UInt8.ofNat note < 0x80 := by
      rw [UInt8.lt_iff_toNat_lt, Text.toNat_ofNat_of_lt (by omega)]
      exact note.isLt
    rw [channelBytes, if_pos hrun]
    refine Reads.bind (m := [] ++ [UInt8.ofNat velocity]) (Reader.reads_byte (UInt8.ofNat note)) ?_
    rw [if_pos hlt, hr status hrun]
    exact Reads.bind (Reads.pure (status, [UInt8.ofNat note])) (Reader.reads_timed_tail _ ticks hstatus rfl h)
  · rw [channelBytes, if_neg hrun]
    refine Reads.bind (m := [] ++ [UInt8.ofNat note, UInt8.ofNat velocity]) (Reader.reads_byte status) ?_
    rw [if_neg (not_lt_of_status hstatus)]
    exact Reads.bind (Reads.pure (status, [])) (Reader.reads_timed_tail _ ticks hstatus rfl h)

theorem shortMessage_noteOn (channel : Channel) (note velocity : DataByte) :
    shortMessage (UInt8.ofNat (0x90 + channel)) [note, velocity] = .ok (.drum (.noteOn channel note velocity)) := by
  have hstatus := toNat_status (n := 0x90) channel (by omega)
  have hhigh : (UInt8.ofNat (0x90 + channel)).toNat / 16 = 9 := by omega
  have hlow : Fin.ofNat 16 (UInt8.ofNat (0x90 + channel)).toNat = channel := by
    apply Fin.ext
    rw [hstatus, Fin.val_ofNat]
    omega
  unfold shortMessage
  simp only [hhigh, hlow]

theorem shortMessage_noteOff (channel : Channel) (note velocity : DataByte) :
    shortMessage (UInt8.ofNat (0x80 + channel)) [note, velocity] = .ok (.drum (.noteOff channel note velocity)) := by
  have hstatus := toNat_status (n := 0x80) channel (by omega)
  have hhigh : (UInt8.ofNat (0x80 + channel)).toNat / 16 = 8 := by omega
  have hlow : Fin.ofNat 16 (UInt8.ofNat (0x80 + channel)).toNat = channel := by
    apply Fin.ext
    rw [hstatus, Fin.val_ofNat]
    omega
  unfold shortMessage
  simp only [hhigh, hlow]

/-- **One message.** Reading takes the bytes that writing gives for a message, and the two agree on the status byte in
force after it if they do before it. -/
theorem Reader.reads_timed {message : Message} (h : message.Readable) {running read : Option UInt8}
    (hr : Agrees running read) (ticks : Nat) :
    ∃ read', Agrees (message.encode running).2 read' ∧
      Reader.Reads (Reader.timed read) (VariableLength.write ticks ++ (message.encode running).1)
        (⟨.int ticks, .drum message⟩, read') := by
  have hmeta : Agrees none read := fun status hs => by cases hs
  have hchannel (status : UInt8) : Agrees (some status) (some status) := fun _ hs => hs
  cases message with
  | trackName name => exact ⟨read, hmeta, reads_timed_meta _ _ _ _ _ h (readMeta_trackName name)⟩
  | setTempo tempo =>
    refine ⟨read, hmeta, reads_timed_meta _ _ _ _ _ ?_ (readMeta_setTempo tempo)⟩
    rw [length_bigEndian]
    unfold longestData
    omega
  | timeSignature numerator denominator clocks thirtySeconds =>
    refine ⟨read, hmeta, reads_timed_meta _ _ _ _ _ ?_ (readMeta_timeSignature _ _ _ _ h.1 h.2)⟩
    simp only [List.length_cons, List.length_nil]
    unfold longestData
    omega
  | noteOn channel note velocity =>
    have hstatus := toNat_status (n := 0x90) channel (by omega)
    exact ⟨_, hchannel _, reads_timed_channel hr ticks (.inr (by omega)) (shortMessage_noteOn channel note velocity)⟩
  | noteOff channel note velocity =>
    have hstatus := toNat_status (n := 0x80) channel (by omega)
    exact ⟨_, hchannel _, reads_timed_channel hr ticks (.inl (by omega)) (shortMessage_noteOff channel note velocity)⟩
  | endOfTrack =>
    refine ⟨read, hmeta, reads_timed_meta _ _ _ _ _ ?_ readMeta_endOfTrack⟩
    unfold longestData
    simp

end Drumline.Midi
