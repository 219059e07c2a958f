/-
Numbers in groups of seven bits, most significant group first; the top bit of every byte but the last is set.

Main statement: `read_write`, what is written is read again, whatever follows it.
-/
namespace Drumline.Midi.VariableLength

/-- the groups above the last one -/
def continued (n : Nat) : List UInt8 :=
  if n = 0 then [] else continued (n / 128) ++ [UInt8.ofNat (n % 128 + 128)]
termination_by n
decreasing_by omega

/-- the bytes of a number, as few as possible -/
def write (n : Nat) : List UInt8 :=
  continued (n / 128) ++ [UInt8.ofNat (n % 128)]

/-- reads on from the groups read so far, and gives the rest of the bytes; none if they end too early -/
def readFrom (n : Nat) : List UInt8 → Option (Nat × List UInt8)
  | [] => none
  | b :: rest =>
    let value := n * 128 + b.toNat % 128
    if b < 128 then some (value, rest) else readFrom value rest

def read (bytes : List UInt8) : Option (Nat × List UInt8) :=
  readFrom 0 bytes

theorem readFrom_continued (n : Nat) (bytes : List UInt8) :
    readFrom 0 (continued n ++ bytes) = readFrom n bytes := by
  induction n using Nat.strongRecOn generalizing bytes with
  | ind n ih =>
    rw [continued]
    split
    · simp_all
    · rename_i h
      have hb : (UInt8.ofNat (n % 128 + 128)).toNat = n % 128 + 128 := by
        simp only [UInt8.toNat_ofNat']
        omega
      have hlt : ¬UInt8.ofNat (n % 128 + 128) < 128 := by
        simp only [UInt8.lt_iff_toNat_lt, hb]
        have : (128 : UInt8).toNat = 128 := rfl
        omega
      rw [List.append_assoc, ih _ (by omega)]
      simp only [List.cons_append, List.nil_append, readFrom, hb, if_neg hlt]
      congr 1
      omega

theorem read_write (n : Nat) (rest : List UInt8) : read (write n ++ rest) = some (n, rest) := by
  have hb : (UInt8.ofNat (n % 128)).toNat = n % 128 := by
    simp only [UInt8.toNat_ofNat']
    omega
  have hlt : UInt8.ofNat (n % 128) < 128 := by
    simp only [UInt8.lt_iff_toNat_lt, hb]
    have : (128 : UInt8).toNat = 128 := rfl
    omega
  rw [read, write, List.append_assoc, readFrom_continued]
  simp only [List.cons_append, List.nil_append, readFrom, hb, if_pos hlt]
  congr 2
  omega

end Drumline.Midi.VariableLength
