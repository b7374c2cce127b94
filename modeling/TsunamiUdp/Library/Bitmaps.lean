import Mathlib.Data.Nat.Bitwise
import TsunamiUdp.Library.Memory

/-! Sets of numbers as the bits of a block of bytes, the lowest bit of a byte first. -/
namespace TsunamiUdp.Library

def bitMask (i : Nat) : UInt8 := UInt8.ofNat (1 <<< (i % 8))

/-- Whether the number is in the set; `none` if its byte is outside of the block. -/
def readBit (bytes : List UInt8) (i : Nat) : Option Bool :=
  (readCell bytes (i / 8)).map fun byte => byte &&& bitMask i != 0

def writeBit (bytes : List UInt8) (i : Nat) : Option (List UInt8) :=
  (readCell bytes (i / 8)).bind fun byte => writeCell bytes (i / 8) (byte ||| bitMask i)

/-- The set; behind the block there is nothing in it. -/
def bits (bytes : List UInt8) : Nat → Bool := fun i =>
  (contents 0 bytes (i / 8)).toNat.testBit (i % 8)

section Bits
variable {bytes : List UInt8} {i n : Nat}

@[simp] theorem toNat_bitMask (i : Nat) : (bitMask i).toNat = 2 ^ (i % 8) := by
  have hlt : 2 ^ (i % 8) < 2 ^ 8 := Nat.pow_lt_pow_right (by decide) (Nat.mod_lt i (by decide))
  rw [bitMask, UInt8.toNat_ofNat', Nat.one_shiftLeft, Nat.mod_eq_of_lt hlt]

theorem and_bitMask (byte : UInt8) (i : Nat) : (byte &&& bitMask i != 0) = byte.toNat.testBit (i % 8) := by
  have hnat : (byte &&& bitMask i).toNat = (byte.toNat.testBit (i % 8)).toNat * 2 ^ (i % 8) := by
    rw [UInt8.toNat_and, toNat_bitMask, Nat.and_two_pow]
  cases htest : byte.toNat.testBit (i % 8) with
  | true =>
    apply bne_iff_ne.mpr
    intro hzero
    have hpos : 0 < 2 ^ (i % 8) := Nat.two_pow_pos _
    rw [htest, hzero, Bool.toNat_true, Nat.one_mul] at hnat
    exact Nat.ne_of_lt hpos hnat
  | false =>
    rw [htest] at hnat
    simp only [bne_eq_false_iff_eq]
    apply UInt8.toNat_inj.mp
    simpa using hnat

theorem testBit_or_bitMask (byte : UInt8) (i j : Nat) :
    (byte ||| bitMask i).toNat.testBit (j % 8) = (byte.toNat.testBit (j % 8) || decide (i % 8 = j % 8)) := by
  rw [UInt8.toNat_or, toNat_bitMask, Nat.testBit_or, Nat.testBit_two_pow]

theorem readBit_of_lt (h : i / 8 < bytes.length) : readBit bytes i = some (bits bytes i) := by
  have hread : readCell bytes (i / 8) = some (contents 0 bytes (i / 8)) := readCell_of_lt h
  rw [readBit, hread, Option.map_some, and_bitMask, bits]

theorem writeBit_of_lt (h : i / 8 < bytes.length) : ∃ bytes', writeBit bytes i = some bytes' ∧
    bytes'.length = bytes.length ∧ bits bytes' = Function.update (bits bytes) i true := by
  refine ⟨bytes.set (i / 8) (contents 0 bytes (i / 8) ||| bitMask i), ?_, List.length_set, ?_⟩
  · have hread : readCell bytes (i / 8) = some (contents 0 bytes (i / 8)) := readCell_of_lt h
    rw [writeBit, hread, Option.bind_some, writeCell_of_lt h]
  · funext j
    rw [bits, contents_set h]
    by_cases hbyte : j / 8 = i / 8
    · rw [hbyte, Function.update_self, testBit_or_bitMask]
      by_cases hj : j = i
      · subst hj
        simp
      · rw [Function.update_of_ne hj, bits, hbyte, decide_eq_false (by omega), Bool.or_false]
    · have hj : j ≠ i := fun h => hbyte (by rw [h])
      rw [Function.update_of_ne hbyte, Function.update_of_ne hj, bits]

@[simp] theorem bits_replicate (n : Nat) : bits (List.replicate n 0) = fun _ => false := by
  funext i
  rw [bits, contents_replicate]
  exact Nat.zero_testBit _

theorem bits_take (h : i / 8 < n) : bits (bytes.take n) i = bits bytes i := by
  simp only [bits, contents, List.getD_eq_getElem?_getD, List.getElem?_take, if_pos h]

end Bits

end TsunamiUdp.Library
