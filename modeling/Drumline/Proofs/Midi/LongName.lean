/-
What is written and not read again: a track whose name is longer than the data of a message may be. The writer takes a
name of any length, so there are such files, and reading one stops at the name (`decodeFile_of_long_name`).

A reader is said to fail on some bytes (`Reader.Fails`) if it gives an error when it comes to them, whatever follows.
Behind bytes that are read, and before anything that would be read later, it still fails.
-/
import Drumline.Proofs.Midi.File

namespace Drumline.Midi

namespace Reader

variable {α β : Type} {read : Reader α} {next : α → Reader β} {l m : List UInt8} {a : α} {e : ReadError}

/-- a reader gives an error at these bytes, whatever follows them -/
def Fails (read : Reader α) (bytes : List UInt8) (e : ReadError) : Prop :=
  ∀ (rest : List UInt8) (position : Nat), read ⟨bytes ++ rest, position⟩ = .error e

theorem Fails.append (h : Fails read l e) (m : List UInt8) : Fails read (l ++ m) e := by
  intro rest position
  rw [List.append_assoc]
  exact h (m ++ rest) position

theorem Fails.bind (h : Fails read l e) : Fails (read >>= next) l e :=
  fun rest position => bind_of_error (h rest position)

theorem Reads.fails (h : Reads read l a) (hnext : Fails (next a) m e) : Fails (read >>= next) (l ++ m) e := by
  intro rest position
  rw [List.append_assoc]
  exact (bind_of_ok (h _ _)).trans (hnext _ _)

/-! ## A message -/

theorem fails_data {length : Nat} (hlong : longestData < length) : Fails (data length) [] (.tooLong length) := by
  intro rest position
  unfold data
  rw [if_pos hlong]
  rfl

theorem fails_timedMeta (ticks : Nat) (type : UInt8) {length : Nat} (hlong : longestData < length) :
    Fails (timedMeta ticks) (type :: VariableLength.write length) (.tooLong length) := by
  have hbytes : type :: VariableLength.write length = [type] ++ (VariableLength.write length ++ []) := by simp
  rw [hbytes]
  exact (reads_byte type).fails ((reads_quantity length).fails (fails_data hlong).bind)

theorem fails_timed (running : Option UInt8) (ticks : Nat) (type : UInt8) {data : List UInt8}
    (hlong : longestData < data.length) :
    Fails (timed running) (VariableLength.write ticks ++ metaBytes type data) (.tooLong data.length) := by
  have hbytes : metaBytes type data = [0xFF] ++ ([] ++ ((type :: VariableLength.write data.length) ++ data)) := by
    simp [metaBytes]
  rw [hbytes]
  unfold timed
  refine (reads_quantity ticks).fails ((reads_byte 0xFF).fails ?_)
  exact Reads.fails (a := (0xFF, [])) (Reads.pure _) ((fails_timedMeta ticks type hlong).append data).bind

/-! ## A file -/

/-- reading messages stops at the first if that is not read -/
theorem messages_of_fails {running : Option UInt8} (h : Fails (timed running) l e) (hpos : 0 < l.length)
    (rest : List UInt8) (position : Nat) :
    messages (position + l.length) (l ++ rest).length running ⟨l ++ rest, position⟩ = .error e := by
  obtain ⟨fuel, hfuel⟩ := Nat.exists_eq_add_one_of_ne_zero (Nat.ne_of_gt hpos)
  rw [List.length_append, hfuel, Nat.add_right_comm, messages_succ (by omega)]
  exact bind_of_error (h rest position)

/-- reading a track stops at a name that is too long -/
theorem fails_track {delta : Number} {name : String} (hlong : longestData < (Text.encode name.toList).length)
    {timed : List (Timed Message)} {bytes : List UInt8}
    (hbytes : trackChunk (⟨delta, .trackName name⟩ :: timed) = .ok bytes) :
    Fails track bytes (.tooLong (Text.encode name.toList).length) := by
  obtain ⟨data, hdata, hsize, rfl⟩ := trackChunk_eq_ok.1 hbytes
  obtain ⟨ticks, others, -, -, rfl⟩ := encodeMessages_cons.1 hdata
  have hpos : 0 < (VariableLength.write ticks ++ (Message.trackName name |>.encode none).1 ++ others).length := by
    rw [List.length_append, List.length_append, VariableLength.length_write]
    omega
  intro rest position
  rw [track_chunk hsize]
  exact messages_of_fails ((fails_timed none ticks 0x03 hlong).append others) hpos rest (position + 8)

end Reader

/-- **A name that is too long.** A file whose first track starts with such a name can be written, and not read. -/
theorem decodeFile_of_long_name {delta : Number} {name : String}
    (hlong : longestData < (Text.encode name.toList).length) {timed : List (Timed Message)}
    {tracks : List (List (Timed Message))} {bytes : List UInt8}
    (hbytes : encodeFile ((⟨delta, .trackName name⟩ :: timed) :: tracks) = .ok bytes) :
    decodeFile bytes = .error (.tooLong (Text.encode name.toList).length) := by
  obtain ⟨hcount, chunks, hchunks, rfl⟩ := encodeFile_eq_ok.1 hbytes
  obtain ⟨-, htracks, -⟩ := signedPair_headerOf hcount
  generalize hn : ((⟨delta, Message.trackName name⟩ :: timed) :: tracks).length = n at htracks hcount
  have hlength : (headerOf n).length = 6 := by
    simp only [headerOf, List.length_append, length_bigEndian]
  cases mapM_eq_ok.1 hchunks with
  | @cons _ first _ others hfirst _ =>
    have hread : Reader.Fails File.read (chunk "MThd" (headerOf n) ++ (first :: others).flatten)
        (.tooLong (Text.encode name.toList).length) := by
      unfold chunk File.read
      rw [List.append_assoc _ (headerOf n)]
      refine (Reader.reads_chunkHeader length_headerName (by omega)).fails ?_
      show Reader.Fails (if "MThd".toUTF8.toList ≠ "MThd".toUTF8.toList then throw .noHeader else _) _ _
      rw [if_neg (not_not.2 rfl)]
      refine (Reader.reads_upTo _ rfl).fails ?_
      rw [if_neg (by omega), htracks, ← hn]
      exact ((Reader.fails_track hlong hfirst).append others.flatten).bind.bind
    have herror := hread [] 0
    rw [List.append_nil] at herror
    rw [decodeFile, herror]
    rfl

end Drumline.Midi
