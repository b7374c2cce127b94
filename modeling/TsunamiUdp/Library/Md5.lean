import Mathlib.Data.BitVec
import TsunamiUdp.Library.Blocks
import TsunamiUdp.Library.Sines

/-! The message digest of RFC 1321: padding, the 64 operations on a block, and the chain of
the blocks. -/
namespace TsunamiUdp.Library.Md5

abbrev Word := BitVec 32

/-! A word and its four bytes, the low-order byte first. -/
def word (bytes : List UInt8) (k : Nat) : Word :=
  let byte (i : Nat) : Nat := (bytes.getD (4 * k + i) 0).toNat
  BitVec.ofNat 32 (byte 0 + byte 1 <<< 8 + byte 2 <<< 16 + byte 3 <<< 24)

def wordBytes (w : Word) : List UInt8 := (List.range 4).map fun i => UInt8.ofNat (w >>> (8 * i)).toNat

@[simp] theorem wordBytes_length (w : Word) : (wordBytes w).length = 4 := by simp [wordBytes]

structure Registers where
  a : Word
  b : Word
  c : Word
  d : Word
deriving DecidableEq

namespace Registers

def initial : Registers := ⟨0x67452301, 0xefcdab89, 0x98badcfe, 0x10325476⟩

def add (r r' : Registers) : Registers := ⟨r.a + r'.a, r.b + r'.b, r.c + r'.c, r.d + r'.d⟩

def bytes (r : Registers) : List UInt8 :=
  wordBytes r.a ++ wordBytes r.b ++ wordBytes r.c ++ wordBytes r.d

end Registers

def mix (j : Nat) (x y z : Word) : Word :=
  match j / 16 with
  | 0 => (x &&& y) ||| (~~~x &&& z)
  | 1 => (x &&& z) ||| (y &&& ~~~z)
  | 2 => x ^^^ y ^^^ z
  | _ => y ^^^ (x ||| ~~~z)

def index (j : Nat) : Nat :=
  match j / 16 with
  | 0 => j
  | 1 => (1 + 5 * j) % 16
  | 2 => (5 + 3 * j) % 16
  | _ => 7 * j % 16

def shift (j : Nat) : Nat :=
  match j / 16, j % 4 with
  | 0, 0 => 7 | 0, 1 => 12 | 0, 2 => 17 | 0, _ => 22
  | 1, 0 => 5 | 1, 1 => 9 | 1, 2 => 14 | 1, _ => 20
  | 2, 0 => 4 | 2, 1 => 11 | 2, 2 => 16 | 2, _ => 23
  | _, 0 => 6 | _, 1 => 10 | _, 2 => 15 | _, _ => 21

/-- The integer part of `2 ^ 32` times the sine of `j + 1`. -/
noncomputable def sineTable (j : Nat) : Word :=
  BitVec.ofNat 32 ⌊4294967296 * |Real.sin ((j + 1 : Nat) : ℝ)|⌋₊

theorem sineTable_eq {j t : Nat} (hj : j < 1000) (h : hasBits (j + 1) t = true) :
    sineTable j = BitVec.ofNat 32 t := by
  rw [sineTable, floor_sin hj h]

section Compression
variable (table : Nat → Word)

/-- The operation `[abcd k s i]`, after which the registers change places. -/
def operate (block : List UInt8) (r : Registers) (j : Nat) : Registers where
  a := r.d
  b := r.b + (r.a + mix j r.b r.c r.d + word block (index j) + table j).rotateLeft (shift j)
  c := r.b
  d := r.c

def compress (r : Registers) (block : List UInt8) : Registers :=
  r.add ((List.range 64).foldl (operate table block) r)

/-- The registers after the first blocks of the message. -/
def absorb (count : Nat) (message : List UInt8) : Registers :=
  (List.range count).foldl (fun r i => compress table r (blockAt 64 message (i + 1))) .initial

end Compression

def zeros (size : Nat) : Nat := (119 - size % 64) % 64

def lengthBytes (size : Nat) : List UInt8 :=
  wordBytes (BitVec.ofNat 32 (8 * size)) ++ wordBytes (BitVec.ofNat 32 (8 * size / 4294967296))

def pad (message : List UInt8) : List UInt8 :=
  message ++ 0x80 :: List.replicate (zeros message.length) 0 ++ lengthBytes message.length

def paddedBlocks (message : List UInt8) : List (List UInt8) :=
  (List.range ((pad message).length / 64)).map fun i => blockAt 64 (pad message) (i + 1)

def digest (table : Nat → Word) (message : List UInt8) : List UInt8 :=
  (absorb table ((pad message).length / 64) (pad message)).bytes

section Blocks
variable (table : Nat → Word) {message : List UInt8} {count : Nat}

@[simp] theorem absorb_zero (message : List UInt8) : absorb table 0 message = .initial := rfl

theorem absorb_succ (count : Nat) (message : List UInt8) :
    absorb table (count + 1) message =
      compress table (absorb table count message) (blockAt 64 message (count + 1)) := by
  rw [absorb, List.range_succ, List.foldl_append, List.foldl_cons, List.foldl_nil, absorb]

theorem blockAt_append {i : Nat} (h : 64 * (i + 1) ≤ message.length) (rest : List UInt8) :
    blockAt 64 (message ++ rest) (i + 1) = blockAt 64 message (i + 1) := by
  unfold blockAt blockStart
  rw [Nat.add_sub_cancel, List.drop_append_of_le_length (by omega),
    List.take_append_of_le_length (by rw [List.length_drop]; omega)]

theorem blockAt_behind (h : message.length = 64 * count) (rest : List UInt8) (i : Nat) :
    blockAt 64 (message ++ rest) (count + i + 1) = blockAt 64 rest (i + 1) := by
  unfold blockAt blockStart
  rw [Nat.add_sub_cancel, Nat.add_sub_cancel, Nat.mul_add, ← h, List.drop_append,
    List.drop_eq_nil_of_le (by omega), List.nil_append, Nat.add_sub_cancel_left]

theorem absorb_append (h : 64 * count ≤ message.length) (rest : List UInt8) :
    absorb table count (message ++ rest) = absorb table count message := by
  induction count with
  | zero => rw [absorb_zero, absorb_zero]
  | succ count ih => rw [absorb_succ, absorb_succ, ih (by omega), blockAt_append h]

theorem absorb_behind (h : message.length = 64 * count) (rest : List UInt8) (more : Nat) :
    absorb table (count + more) (message ++ rest) = (List.range more).foldl
      (fun r i => compress table r (blockAt 64 rest (i + 1))) (absorb table count message) := by
  induction more with
  | zero => rw [Nat.add_zero, absorb_append table h.ge rest, List.range_zero, List.foldl_nil]
  | succ more ih =>
    rw [← Nat.add_assoc, absorb_succ, ih, blockAt_behind h, List.range_succ, List.foldl_append,
      List.foldl_cons, List.foldl_nil]

end Blocks

@[simp] theorem lengthBytes_length (size : Nat) : (lengthBytes size).length = 8 := by
  simp [lengthBytes]

theorem pad_length (message : List UInt8) :
    (pad message).length =
      64 * (message.length / 64 + if message.length % 64 < 56 then 1 else 2) := by
  simp only [pad, zeros, List.length_append, List.length_cons, List.length_replicate,
    lengthBytes_length]
  split <;> omega

theorem digest_eq (table : Nat → Word) (message : List UInt8) :
    digest table message = ((paddedBlocks message).foldl (compress table) .initial).bytes := by
  rw [digest, absorb, paddedBlocks, List.foldl_map]

/-- Only the 64 constants of the operations matter. -/
theorem digest_congr {table table' : Nat → Word} (h : ∀ j < 64, table j = table' j)
    (message : List UInt8) : digest table message = digest table' message := by
  have hcompress : compress table = compress table' := by
    funext r block
    refine congrArg r.add (List.foldl_ext _ _ _ fun r j hj => ?_)
    rw [operate, operate, h j (List.mem_range.mp hj)]
  rw [digest_eq, digest_eq, hcompress]

end TsunamiUdp.Library.Md5
