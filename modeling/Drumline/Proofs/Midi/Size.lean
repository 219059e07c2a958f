/-
How many bytes the messages of a track take: `length_encodeMessages_le` adds up what the messages take with their status
(`Message.size`) and what their deltas take, if these are below a power of 128. Running status can only save bytes.
-/
import Drumline.Proofs.Midi.File

namespace Drumline.Midi

/-- the bytes of a message with its status -/
def Message.size (m : Message) : Nat := (m.encode none).1.length

/-! ## Numbers -/

theorem VariableLength.length_continued_le {n k : Nat} (h : n < 128 ^ k) : (continued n).length ≤ k := by
  induction k generalizing n with
  | zero =>
    obtain rfl : n = 0 := by omega
    rw [continued, if_pos rfl]
    exact le_rfl
  | succ k ih =>
    rw [continued]
    split
    · exact Nat.zero_le _
    · have hgroup : n / 128 < 128 ^ k := Nat.div_lt_of_lt_mul (by rw [← Nat.pow_succ']; exact h)
      rw [List.length_append]
      exact Nat.succ_le_succ (ih hgroup)

/-- a number takes as many bytes as it has groups of seven bits -/
theorem VariableLength.length_write_le {n k : Nat} (h : n < 128 ^ (k + 1)) : (write n).length ≤ k + 1 := by
  rw [length_write]
  exact Nat.succ_le_succ (length_continued_le (Nat.div_lt_of_lt_mul (by rw [← Nat.pow_succ']; exact h)))

theorem VariableLength.lt_length_continued {n k : Nat} (h : 128 ^ k ≤ n) : k < (continued n).length := by
  induction k generalizing n with
  | zero =>
    rw [continued, if_neg (Nat.ne_of_gt h), List.length_append]
    exact Nat.succ_pos _
  | succ k ih =>
    have hpos : 0 < n := (Nat.pow_pos (by omega)).trans_le h
    have hgroup : 128 ^ k ≤ n / 128 := (Nat.le_div_iff_mul_le (by omega)).2 h
    rw [continued, if_neg (Nat.ne_of_gt hpos), List.length_append]
    exact Nat.succ_lt_succ (ih hgroup)

/-- a number takes more bytes the greater it is, without end -/
theorem VariableLength.lt_length_write {n k : Nat} (h : 128 ^ k ≤ n) : k < (write n).length := by
  rw [length_write]
  cases k with
  | zero => exact Nat.succ_pos _
  | succ k => exact Nat.succ_lt_succ (lt_length_continued ((Nat.le_div_iff_mul_le (by omega)).2 h))

/-! ## Messages -/

theorem Message.length_encode_le (m : Message) (running : Option UInt8) : (m.encode running).1.length ≤ m.size := by
  have hchannel (status : UInt8) (data : List UInt8) :
      (channelBytes running status data).1.length ≤ (channelBytes none status data).1.length := by
    have hnone : (channelBytes none status data).1.length = data.length + 1 := rfl
    rw [hnone, channelBytes]
    simp only
    split
    · exact Nat.le_succ _
    · exact le_rfl
  cases m with
  | noteOn channel note velocity => exact hchannel _ _
  | noteOff channel note velocity => exact hchannel _ _
  | _ => exact le_rfl

theorem length_metaBytes_le (type : UInt8) {data : List UInt8} {k : Nat} (h : data.length < 128 ^ (k + 1)) :
    (metaBytes type data).length ≤ k + 3 + data.length := by
  have hwrite := VariableLength.length_write_le h
  simp only [metaBytes, List.length_cons, List.length_append]
  omega

/-- a name takes its bytes, their count and two more -/
theorem Message.size_trackName_le {name : String} (h : (Text.encode name.toList).length ≤ longestData) :
    (Message.trackName name).size ≤ longestData + 5 := by
  have hlt : (Text.encode name.toList).length < 128 ^ (2 + 1) := by
    unfold longestData at h
    omega
  have := length_metaBytes_le 0x03 hlt
  show (metaBytes 0x03 (Text.encode name.toList)).length ≤ _
  omega

/-- every other message takes at most seven bytes -/
theorem Message.size_le {m : Message} (h : ∀ name, m ≠ .trackName name) : m.size ≤ 7 := by
  have hmeta (type : UInt8) (data : List UInt8) (hdata : data.length ≤ 4) : (metaBytes type data).length ≤ 7 := by
    have := length_metaBytes_le type (k := 0) (show data.length < _ by omega)
    omega
  cases m with
  | trackName name => exact (h name rfl).elim
  | setTempo tempo => exact hmeta 0x51 (bigEndian 3 tempo) (by rw [length_bigEndian]; omega)
  | timeSignature numerator denominator clocks thirtySeconds => exact hmeta 0x58 [_, _, _, _] le_rfl
  | noteOn channel note velocity => exact (show 3 ≤ 7 by omega)
  | noteOff channel note velocity => exact (show 3 ≤ 7 by omega)
  | endOfTrack => exact hmeta 0x2F [] (Nat.zero_le _)

/-- the messages of a track take at most the sum of their sizes and of the room for a delta each -/
theorem length_encodeMessages_le {k : Nat} {timed : List (Timed Message)}
    (h : ∀ m ∈ timed, ∀ ticks : Nat, m.delta = .int ticks → ticks < 128 ^ (k + 1)) {running : Option UInt8}
    {bytes : List UInt8} (hbytes : encodeMessages running timed = .ok bytes) :
    bytes.length ≤ (timed.map fun m => k + 1 + m.message.size).sum := by
  induction timed generalizing running bytes with
  | nil =>
    cases hbytes
    exact le_rfl
  | cons m timed ih =>
    obtain ⟨ticks, others, hticks, hothers, rfl⟩ := encodeMessages_cons.1 hbytes
    have hdelta := VariableLength.length_write_le (h m List.mem_cons_self ticks hticks)
    have hmessage := m.message.length_encode_le running
    have hrest := ih (fun m hm => h m (List.mem_cons_of_mem _ hm)) hothers
    rw [List.length_append, List.length_append, List.map_cons, List.sum_cons]
    omega

end Drumline.Midi
