/-
Reading at a place of the data.

* `Stands data position b` — the bytes `b` stand in the data at a position;
* `stands_append` — what stands one after the other stands in two places;
* `readNumber_of_stands`, `readBlob_of_stands` — a word and a byte sequence are
  read as what they were written from, whatever stands around them.

Design notes: the writer only appends, the reader only looks at places.
`Stands` is the common ground: the layout of a sequence is taken apart with
`stands_append`, and each reader needs its own bytes and the size of the data.
-/
import LedgerAbi.Codec.Decode
import LedgerAbi.Codec.Encode

namespace LedgerAbi

namespace Bytes

@[simp] theorem length_ofNat (length n : Nat) : (ofNat length n).length = length := by
  induction length generalizing n with
  | zero => rfl
  | succ length ih => simp [ofNat, ih]

theorem toNat_append_singleton (bytes : Bytes) (b : UInt8) :
    toNat (bytes ++ [b]) = toNat bytes * 256 + b.toNat := by
  simp [toNat, List.foldl_append]

theorem toNat_ofNat (length n : Nat) : toNat (ofNat length n) = n % 256 ^ length := by
  induction length generalizing n with
  | zero => simp [ofNat, toNat, Nat.mod_one]
  | succ length ih =>
    have hlow : n.toUInt8.toNat = n % 256 := UInt8.toNat_ofNat'
    rw [ofNat, toNat_append_singleton, ih, hlow, Nat.pow_succ, Nat.mul_comm (256 ^ length) 256,
      Nat.mod_mul, Nat.add_comm, Nat.mul_comm 256]

end Bytes

@[simp] theorem length_wordBytes (n : Nat) : (wordBytes n).length = 32 := Bytes.length_ofNat 32 n

theorem toNat_wordBytes {n : Nat} (h : n < 2 ^ 256) : Bytes.toNat (wordBytes n) = n := by
  rw [wordBytes, Bytes.toNat_ofNat]
  exact Nat.mod_eq_of_lt (by simpa using h)

theorem le_ceil32 (n : Nat) : n ≤ ceil32 n := by
  simp only [ceil32]
  omega

theorem length_blobBytes (b : Bytes) : (blobBytes b).length = 32 + ceil32 b.length := by
  rw [blobBytes, List.length_append, length_wordBytes, Bytes.length_padEnd (le_ceil32 _)]

/-! ### Places -/

/-- The bytes stand in the data at a position. -/
def Stands (data : Bytes) (position : Nat) (b : Bytes) : Prop := b <+: data.drop position

theorem stands_append {data : Bytes} {position : Nat} {a b : Bytes} :
    Stands data position (a ++ b) ↔
      Stands data position a ∧ Stands data (position + a.length) b := by
  simp only [Stands, ← List.drop_drop]
  constructor
  · rintro ⟨rest, hrest⟩
    refine ⟨⟨b ++ rest, by rw [← hrest, List.append_assoc]⟩, ⟨rest, ?_⟩⟩
    rw [← hrest, List.append_assoc, List.drop_left]
  · rintro ⟨⟨rest, hrest⟩, hb⟩
    rw [← hrest, List.drop_left] at hb
    rw [← hrest]
    exact List.prefix_append_right_inj a |>.mpr hb

theorem stands_self (data : Bytes) : Stands data 0 data := List.prefix_refl data

theorem Stands.length_le {data : Bytes} {position : Nat} {b : Bytes} (h : Stands data position b)
    (hb : 0 < b.length) : position + b.length ≤ data.length := by
  have := List.IsPrefix.length_le h
  rw [List.length_drop] at this
  omega

theorem Stands.take_eq {data : Bytes} {position : Nat} {b : Bytes} (h : Stands data position b) :
    (data.drop position).take b.length = b := (List.prefix_iff_eq_take.mp h).symm

theorem readWord_of_stands {data : Bytes} {position : Nat} {word : Bytes}
    (h : Stands data position word) (hword : word.length = 32) :
    readWord data position = .ok word := by
  have htake := h.take_eq
  rw [hword] at htake
  simp only [readWord, htake, hword, if_true]

theorem readNumber_of_stands {data : Bytes} {position n : Nat}
    (h : Stands data position (wordBytes n)) (hn : n < 2 ^ 256) :
    readNumber data position = .ok n := by
  simp only [readNumber, readWord_of_stands h (length_wordBytes n), bind, Except.bind,
    toNat_wordBytes hn]

theorem readBlob_of_stands {data : Bytes} {position : Nat} {b : Bytes}
    (h : Stands data position (blobBytes b)) (hdata : data.length < 2 ^ 63) :
    readBlob data position = .ok b := by
  have hle := h.length_le (by rw [length_blobBytes]; omega)
  rw [length_blobBytes] at hle
  have hceil := le_ceil32 b.length
  obtain ⟨hlength, hbytes⟩ := stands_append.mp h
  rw [length_wordBytes] at hbytes
  have htake := hbytes.take_eq
  rw [Bytes.length_padEnd hceil] at htake
  have hpad : ((Bytes.padEnd b (ceil32 b.length)).drop b.length).all (· == 0) = true := by
    simp [Bytes.padEnd, List.all_replicate]
  simp only [readBlob, readNumber_of_stands hlength (by omega), bind, Except.bind, htake,
    Bytes.length_padEnd hceil]
  rw [if_neg (by omega), if_neg (by omega), if_pos hpad]
  simp [Bytes.padEnd]

theorem checkPointer_of_stands {data : Bytes} {start headSize position offset : Nat} {b : Bytes}
    (hpointer : Stands data position (wordBytes offset)) (hhead : headSize ≤ offset)
    (hb : Stands data (start + offset) b) (hpos : 0 < b.length) (hdata : data.length < 2 ^ 63) :
    checkPointer data start headSize position = .ok () := by
  have hle := hb.length_le hpos
  simp only [checkPointer, readNumber_of_stands hpointer (by omega), bind, Except.bind]
  rw [if_neg (by omega)]

end LedgerAbi
