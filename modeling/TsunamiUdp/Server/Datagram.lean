import TsunamiUdp.Library.Runs
import TsunamiUdp.Library.Blocks
import TsunamiUdp.Protocol

/-! `build_datagram` of the file server: whether it seeks is decided from a static
variable that outlives the transfer, while the position is the open file's. -/
namespace TsunamiUdp.Server
open Library

structure File where
  contents : List UInt8
  position : Nat

/-- `fseeko` from the start; an offset beyond `off_t` is refused. -/
def File.fseeko (file : File) (offset : Nat) : File :=
  if offset < 9223372036854775808 then { file with position := offset } else file

def File.fread (file : File) (size : Nat) : List UInt8 × File :=
  let bytes := (file.contents.drop file.position).take size
  (bytes, { file with position := file.position + bytes.length })

/-- What `build_datagram` works on: its static `last_block`, the transfer's file, and
the buffer for the datagram. -/
structure Builder where
  lastBlock : Nat
  file : File
  datagram : List UInt8

def buildDatagram (blockSize blockIndex blockType : Nat) (builder : Builder) : Builder :=
  let file :=
    if blockIndex ≠ wrap32 (builder.lastBlock + 1) then
      builder.file.fseeko (blockSize * wrap32 (blockIndex + 4294967295))
    else builder.file
  let (payload, file) := file.fread blockSize
  ⟨blockIndex, file,
    datagramHeader blockIndex blockType ++ payload ++ builder.datagram.drop (6 + payload.length)⟩

/-- The datagram that carries the bytes of the block it names, in front of what the
buffer held before. -/
def blockDatagram (blockSize : Nat) (contents : List UInt8) (block type : Nat)
    (old : List UInt8) : List UInt8 :=
  let payload := blockAt blockSize contents block
  datagramHeader block type ++ payload ++ old.drop (6 + payload.length)

structure InFile (blockSize : Nat) (contents : List UInt8) (block : Nat) : Prop where
  size_pos : 0 < blockSize
  first : 1 ≤ block
  last : block ≤ blocksOf contents.length blockSize
  narrow : block < 4294967296
  offsets : contents.length < 9223372036854775808

section Build
variable {blockSize block type : Nat} {builder : Builder}

theorem wrap32_pred {i : Nat} (h1 : 1 ≤ i) (hi : i < 4294967296) :
    wrap32 (i + 4294967295) = i - 1 := by
  unfold wrap32
  omega

theorem fread_block {file : File} (hpos : file.position = blockStart blockSize block) :
    file.fread blockSize = (blockAt blockSize file.contents block,
      ⟨file.contents, blockStart blockSize block +
        min blockSize (file.contents.length - blockStart blockSize block)⟩) := by
  unfold File.fread
  rw [hpos]
  simp only [← blockAt_length]
  rfl

@[simp] theorem buildDatagram_contents (blockSize block type : Nat) (builder : Builder) :
    (buildDatagram blockSize block type builder).file.contents = builder.file.contents := by
  unfold buildDatagram File.fseeko
  dsimp only [File.fread]
  split
  · split <;> rfl
  · rfl

variable (type) in
theorem buildDatagram_right (hin : InFile blockSize builder.file.contents block)
    (hpos : block = wrap32 (builder.lastBlock + 1) →
      builder.file.position = blockStart blockSize block) :
    buildDatagram blockSize block type builder =
      ⟨block, ⟨builder.file.contents, min (blockSize * block) builder.file.contents.length⟩,
        blockDatagram blockSize builder.file.contents block type builder.datagram⟩ := by
  have hstart := blockStart_lt_size hin.size_pos hin.first hin.last
  have hend : blockStart blockSize block +
      min blockSize (builder.file.contents.length - blockStart blockSize block) =
      min (blockSize * block) builder.file.contents.length := by
    have := blockStart_add blockSize hin.first
    omega
  unfold buildDatagram
  by_cases hnext : block = wrap32 (builder.lastBlock + 1)
  · rw [if_neg (not_not.mpr hnext)]
    simp only [fread_block (hpos hnext), hend]
    rfl
  · rw [if_pos hnext, wrap32_pred hin.first hin.narrow, File.fseeko,
      if_pos (by have := hin.offsets; unfold blockStart at hstart; omega)]
    have hseek : (⟨builder.file.contents, blockSize * (block - 1)⟩ : File).position =
      blockStart blockSize block := rfl
    simp only [fread_block hseek, hend]
    rfl

theorem blockDatagram_take (blockSize : Nat) (contents : List UInt8) (block type : Nat)
    (old : List UInt8) :
    (blockDatagram blockSize contents block type old).take (6 + blockSize) =
      datagramHeader block type ++ (blockAt blockSize contents block ++
        (old.drop (6 + (blockAt blockSize contents block).length)).take
          (blockSize - (blockAt blockSize contents block).length)) := by
  have hlen := blockAt_length blockSize contents block
  unfold blockDatagram
  dsimp only
  rw [List.append_assoc, List.take_append, List.take_append, datagramHeader_length,
    List.take_of_length_le (by simp),
    List.take_of_length_le (l := blockAt blockSize contents block) (by omega),
    Nat.add_sub_cancel_left]

theorem buildDatagram_room {n : Nat} (h : n ≤ builder.datagram.length) :
    n ≤ (buildDatagram blockSize block type builder).datagram.length := by
  unfold buildDatagram
  simp only [List.length_append, datagramHeader_length, List.length_drop]
  omega

end Build

end TsunamiUdp.Server
