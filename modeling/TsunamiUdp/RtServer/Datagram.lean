import TsunamiUdp.Library.Blocks
import TsunamiUdp.Protocol

/-! `build_datagram` of the realtime server: it reads from the VSIB and appends the
blocks that come in order to the local copy. -/
namespace TsunamiUdp.RtServer
open Library

def maxBlockSize : Nat := 65530

/-- The parameters of a transfer; the block count is stored in 32 bits. -/
structure Parameter where
  blockSize : Nat
  fileSize : Nat
  fileout : Bool
  size_pos : 0 < blockSize
  size_le : blockSize ≤ maxBlockSize

def Parameter.blockCount (param : Parameter) : Nat :=
  wrap32 (blocksOf param.fileSize param.blockSize)

/-- The two static variables, the position in the VSIB, the local copy, and the
buffer for the datagram. -/
structure Builder where
  lastBlock : Nat
  lastWrittenVsibBlock : Nat
  vsibPosition : Nat
  file : List UInt8
  datagram : List UInt8

/-- The VSIB as a byte sequence that reads the same whenever it is read. -/
def readVsibBlock (vsib : Nat → UInt8) (position size : Nat) : List UInt8 :=
  (List.range size).map fun k : Nat => vsib (position + k)

def fseeko (position offset : Nat) : Nat :=
  if offset < 9223372036854775808 then offset else position

def writeSize (param : Parameter) (blockIndex : Nat) : Nat :=
  let size :=
    if blockIndex = param.blockCount then param.fileSize % param.blockSize else param.blockSize
  if size = 0 then param.blockSize else size

def resetStatics (blockIndex : Nat) (builder : Builder) : Builder :=
  if blockIndex = 1 then { builder with lastWrittenVsibBlock := 0, lastBlock := 0 } else builder

/-- The read position: only block 1 is read without a seek, `last_block` being always 0. -/
def readPosition (param : Parameter) (blockIndex : Nat) (builder : Builder) : Nat :=
  if blockIndex ≠ wrap32 (builder.lastBlock + 1) then
    fseeko builder.vsibPosition (param.blockSize * wrap32 (blockIndex + 4294967295))
  else builder.vsibPosition

def stores (param : Parameter) (blockIndex : Nat) (builder : Builder) : Prop :=
  param.fileout = true ∧ blockIndex ≠ 0 ∧ blockIndex = wrap32 (builder.lastWrittenVsibBlock + 1)

instance (param : Parameter) (blockIndex : Nat) (builder : Builder) :
    Decidable (stores param blockIndex builder) := by
  unfold stores
  infer_instance

def storeBlock (param : Parameter) (blockIndex : Nat) (payload : List UInt8) (builder : Builder) :
    Builder :=
  if stores param blockIndex builder then
    { builder with
      lastWrittenVsibBlock := wrap32 (builder.lastWrittenVsibBlock + 1)
      file := builder.file ++ payload.take (writeSize param blockIndex) }
  else builder

def buildDatagram (param : Parameter) (vsib : Nat → UInt8) (blockIndex blockType : Nat)
    (builder : Builder) : Builder :=
  let builder := resetStatics blockIndex builder
  let position := readPosition param blockIndex builder
  let payload := readVsibBlock vsib position param.blockSize
  let builder := storeBlock param blockIndex payload builder
  { builder with
    vsibPosition := position + param.blockSize
    datagram := datagramHeader blockIndex blockType ++ payload ++
      builder.datagram.drop (6 + param.blockSize) }

@[simp] theorem readVsibBlock_length (vsib : Nat → UInt8) (position size : Nat) :
    (readVsibBlock vsib position size).length = size := by
  simp [readVsibBlock]

theorem readVsibBlock_getElem? (vsib : Nat → UInt8) (position size k : Nat) :
    (readVsibBlock vsib position size)[k]? = if k < size then some (vsib (position + k)) else none := by
  by_cases hk : k < size
  · simp [readVsibBlock, hk]
  · rw [if_neg hk, List.getElem?_eq_none]
    simpa using hk

def recording (param : Parameter) (vsib : Nat → UInt8) : List UInt8 :=
  readVsibBlock vsib 0 param.fileSize

section Build
variable {param : Parameter} {vsib : Nat → UInt8} {block type : Nat} {builder : Builder}

theorem writeSize_pos (param : Parameter) (block : Nat) : 0 < writeSize param block := by
  have := param.size_pos
  unfold writeSize
  dsimp only
  by_cases hzero : (if block = param.blockCount then param.fileSize % param.blockSize
      else param.blockSize) = 0
  · rw [if_pos hzero]
    exact this
  · rw [if_neg hzero]
    omega

theorem writeSize_le (param : Parameter) (block : Nat) :
    writeSize param block ≤ param.blockSize := by
  have hmod := Nat.mod_lt param.fileSize param.size_pos
  unfold writeSize
  dsimp only
  by_cases hlast : block = param.blockCount
  · rw [if_pos hlast]
    split <;> omega
  · rw [if_neg hlast]
    split <;> omega

@[simp] theorem recording_length (param : Parameter) (vsib : Nat → UInt8) :
    (recording param vsib).length = param.fileSize :=
  readVsibBlock_length _ _ _

theorem blockCount_le (param : Parameter) :
    param.blockCount ≤ blocksOf param.fileSize param.blockSize :=
  Nat.mod_le _ _

/-- The count in 32 bits is the number of blocks, or no block is cut anyway. -/
def CountFits (param : Parameter) : Prop :=
  blocksOf param.fileSize param.blockSize = param.blockCount ∨
    param.fileSize % param.blockSize = 0

variable (param) in
theorem writeSize_last (h : param.blockCount = blocksOf param.fileSize param.blockSize)
    (hsize : 0 < param.fileSize) :
    writeSize param param.blockCount =
      param.fileSize - blockStart param.blockSize param.blockCount := by
  rw [h, blockSize_of_last param.size_pos hsize, ← h]
  simp only [writeSize, if_pos]

theorem writeSize_eq (h1 : 1 ≤ block) (hle : block ≤ param.blockCount)
    (hfits : block = param.blockCount → CountFits param) :
    writeSize param block =
      min param.blockSize (param.fileSize - blockStart param.blockSize block) := by
  have hbs := param.size_pos
  have hcount := blockCount_le param
  have hstart := blockStart_lt_size hbs h1 (hle.trans hcount)
  have hadd := blockStart_add param.blockSize h1
  by_cases hend : block < blocksOf param.fileSize param.blockSize
  · -- a block in front of the last one is full
    have hfull := blocks_before_lt_size hbs hend
    rw [Nat.min_eq_left (by omega)]
    unfold writeSize
    dsimp only
    by_cases hlast : block = param.blockCount
    · rcases hfits hlast with hall | hmod
      · omega
      · rw [if_pos hlast, if_pos hmod]
    · rw [if_neg hlast, if_neg (by omega)]
  · have hlast : block = param.blockCount := by omega
    have hsize := writeSize_last param (by omega) (by omega)
    have hmax := writeSize_le param block
    rw [hlast] at hmax ⊢
    omega

/-- What is written of a block read at its place is the block, cut to the end of the
file, if and only if the count in 32 bits cuts the right one. -/
theorem written_eq_blockAt_iff (h1 : 1 ≤ block) (hle : block ≤ param.blockCount) :
    (readVsibBlock vsib (blockStart param.blockSize block) param.blockSize).take
        (writeSize param block) = blockAt param.blockSize (recording param vsib) block ↔
      (block = param.blockCount → CountFits param) := by
  have hcount := blockCount_le param
  constructor
  · intro heq hlast
    by_contra hunfit
    obtain ⟨hmore, hmod⟩ := not_or.mp hunfit
    -- the block is cut, but it is not the last one
    have hlen := congrArg List.length heq
    have hfull := blockAt_full (l := recording param vsib) param.size_pos h1
      (by simp; omega)
    have hcut := Nat.mod_lt param.fileSize param.size_pos
    rw [hfull, List.length_take, readVsibBlock_length] at hlen
    unfold writeSize at hlen
    dsimp only at hlen
    rw [if_pos hlast, if_neg hmod] at hlen
    omega
  · intro hfits
    rw [writeSize_eq h1 hle hfits]
    apply List.ext_getElem?
    intro k
    rw [List.getElem?_take, readVsibBlock_getElem?, blockAt_getElem?, recording,
      readVsibBlock_getElem?, Nat.zero_add]
    by_cases hk : k < param.blockSize
    · by_cases hend : blockStart param.blockSize block + k < param.fileSize
      · rw [if_pos (by omega), if_pos hk, if_pos hk, if_pos hend]
      · rw [if_neg (by omega), if_pos hk, if_neg hend]
    · rw [if_neg (by omega), if_neg hk]

def payload (param : Parameter) (vsib : Nat → UInt8) (block : Nat) (builder : Builder) :
    List UInt8 :=
  readVsibBlock vsib (readPosition param block (resetStatics block builder)) param.blockSize

theorem buildDatagram_stores (h : stores param block (resetStatics block builder)) :
    (buildDatagram param vsib block type builder).file =
        builder.file ++ (payload param vsib block builder).take (writeSize param block) ∧
      (buildDatagram param vsib block type builder).lastWrittenVsibBlock = block := by
  have hfile : (resetStatics block builder).file = builder.file := by
    unfold resetStatics
    split <;> rfl
  unfold buildDatagram storeBlock
  dsimp only
  rw [if_pos h]
  exact ⟨by rw [hfile]; rfl, h.2.2.symm⟩

theorem buildDatagram_skips (h1 : block ≠ 1) (h : ¬stores param block builder) :
    (buildDatagram param vsib block type builder).file = builder.file ∧
      (buildDatagram param vsib block type builder).lastWrittenVsibBlock =
        builder.lastWrittenVsibBlock := by
  unfold buildDatagram storeBlock resetStatics
  dsimp only
  rw [if_neg h1, if_neg h]
  exact ⟨rfl, rfl⟩

theorem buildDatagram_lastBlock (h : builder.lastBlock = 0) :
    (buildDatagram param vsib block type builder).lastBlock = 0 := by
  unfold buildDatagram storeBlock resetStatics
  dsimp only
  split <;> split <;> first | rfl | exact h

theorem stores_one (hout : param.fileout = true) : stores param 1 (resetStatics 1 builder) := by
  refine ⟨hout, one_ne_zero, ?_⟩
  rw [resetStatics, if_pos rfl]
  rfl

theorem payload_one (hpos : builder.vsibPosition = 0) :
    payload param vsib 1 builder = readVsibBlock vsib (blockStart param.blockSize 1) param.blockSize := by
  have hseek : ¬1 ≠ wrap32 ((resetStatics 1 builder).lastBlock + 1) := not_not.mpr rfl
  unfold payload readPosition
  rw [if_neg hseek]
  exact congrArg (fun p => readVsibBlock vsib p param.blockSize) hpos

variable (builder) in
theorem payload_later (h2 : 2 ≤ block) (hnarrow : block < 4294967296) (hlast : builder.lastBlock = 0) :
    payload param vsib block builder =
      readVsibBlock vsib (blockStart param.blockSize block) param.blockSize := by
  have hwrap : wrap32 (block + 4294967295) = block - 1 := by
    unfold wrap32
    omega
  have hoff : param.blockSize * (block - 1) < 9223372036854775808 := by
    have hle : param.blockSize * (block - 1) ≤ maxBlockSize * 4294967296 :=
      Nat.mul_le_mul param.size_le (by omega)
    unfold maxBlockSize at hle
    omega
  have hseek : block ≠ wrap32 (0 + 1) := by
    rw [wrap32_of_lt (by omega)]
    omega
  have hreset : resetStatics block builder = builder := if_neg (by omega)
  unfold payload readPosition
  rw [hreset, hlast, if_pos hseek, hwrap, fseeko, if_pos hoff]
  rfl

variable (param vsib block builder) in
theorem payload_written_pos : 0 < ((payload param vsib block builder).take (writeSize param block)).length := by
  have := writeSize_pos param block
  have := param.size_pos
  rw [List.length_take, payload, readVsibBlock_length]
  omega

end Build

end TsunamiUdp.RtServer
