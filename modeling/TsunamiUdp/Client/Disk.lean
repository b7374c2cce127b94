import TsunamiUdp.Library.Blocks
import TsunamiUdp.Client.Transfer

/-! How the client writes a block to its local file (`client/io.c`). -/
namespace TsunamiUdp.Client
open Library

/-- How the calls of `accept_block` end: `fwrite` takes so many bytes at most. -/
inductive DiskResult
  | seekFails
  | wrote (count : Nat)
deriving DecidableEq

def writeSize (param : Parameter) (xfer : Transfer) (blockIndex : Nat) : Nat :=
  if blockIndex = xfer.blockCount then
    let rest := xfer.fileSize % param.blockSize
    if rest = 0 then param.blockSize else rest
  else param.blockSize

structure BlockAccepted where
  ok : Bool
  file : List UInt8

def acceptBlock (param : Parameter) (xfer : Transfer) (result : DiskResult) (blockIndex : Nat)
    (block file : List UInt8) : BlockAccepted :=
  let writeSize := writeSize param xfer blockIndex
  let offset := param.blockSize * wrap32 (blockIndex + 4294967295)
  match result with
  | .seekFails => ⟨false, file⟩
  | .wrote count => ⟨decide (writeSize ≤ count),
      writeAt 0 file offset ((block.take writeSize).take count)⟩

section Spec
variable {param : Parameter} {xfer : Transfer} {blockIndex : Nat}

theorem writeSize_le (hbs : 0 < param.blockSize) :
    writeSize param xfer blockIndex ≤ param.blockSize := by
  have hlt := Nat.mod_lt xfer.fileSize hbs
  unfold writeSize
  dsimp only
  split
  · split <;> omega
  · exact le_rfl

theorem acceptBlock_length (hbs : 0 < param.blockSize) (result : DiskResult) {block file : List UInt8}
    (h1 : 1 ≤ blockIndex) (hlt : blockIndex < 4294967296) :
    (acceptBlock param xfer result blockIndex block file).file.length ≤
      max file.length (param.blockSize * blockIndex) := by
  have hwrite : writeSize param xfer blockIndex ≤ param.blockSize := writeSize_le hbs
  have hend := blockStart_add param.blockSize h1
  cases result with
  | seekFails => exact Nat.le_max_left _ _
  | wrote count =>
    have hprev : wrap32 (blockIndex + 4294967295) = blockIndex - 1 := by
      unfold wrap32
      omega
    unfold acceptBlock
    dsimp only
    rw [writeAt_length, hprev, List.length_take, List.length_take]
    unfold blockStart at hend
    omega

theorem writeSize_eq (hbs : 0 < param.blockSize) (hsize : 0 < xfer.fileSize)
    (hcount : xfer.blockCount = blocksOf xfer.fileSize param.blockSize) (h1 : 1 ≤ blockIndex)
    (hle : blockIndex ≤ xfer.blockCount) :
    writeSize param xfer blockIndex =
      min param.blockSize (xfer.fileSize - blockStart param.blockSize blockIndex) := by
  unfold writeSize
  split
  · rename_i hlast
    have hrest := blockSize_of_last hbs hsize
    have hlt := Nat.mod_lt xfer.fileSize hbs
    have hmax : (if xfer.fileSize % param.blockSize = 0 then param.blockSize
        else xfer.fileSize % param.blockSize) ≤ param.blockSize := by
      split <;> omega
    rw [hlast, hcount, hrest]
    exact (Nat.min_eq_right hmax).symm
  · have hlt : blockIndex < blocksOf xfer.fileSize param.blockSize := by omega
    have hfull := blocks_before_lt_size hbs hlt
    have hadd := blockStart_add param.blockSize h1
    omega

theorem acceptBlock_placed {result : DiskResult} {contents rest file : List UInt8}
    (hbs : 0 < param.blockSize) (hsize : xfer.fileSize = contents.length)
    (hcount : xfer.blockCount = blocksOf contents.length param.blockSize) (h1 : 1 ≤ blockIndex)
    (hle : blockIndex ≤ xfer.blockCount) (hlt : blockIndex < 4294967296)
    (hok : (acceptBlock param xfer result blockIndex
      (blockAt param.blockSize contents blockIndex ++ rest) file).ok = true) :
    (acceptBlock param xfer result blockIndex
      (blockAt param.blockSize contents blockIndex ++ rest) file).file =
      writeAt 0 file (blockStart param.blockSize blockIndex)
        (blockAt param.blockSize contents blockIndex) := by
  have hstart := blockStart_lt_size hbs h1 (hcount ▸ hle)
  have hwrite : writeSize param xfer blockIndex =
      (blockAt param.blockSize contents blockIndex).length := by
    rw [writeSize_eq hbs (by omega) (hsize ▸ hcount) h1 hle, blockAt_length, hsize]
  have hprev : wrap32 (blockIndex + 4294967295) = blockIndex - 1 := by
    unfold wrap32
    omega
  unfold acceptBlock at hok ⊢
  cases result with
  | seekFails => cases hok
  | wrote count =>
    have hall : writeSize param xfer blockIndex ≤ count := by simpa using hok
    dsimp only
    rw [hwrite, List.take_left' rfl, List.take_of_length_le (by omega), hprev]
    rfl

end Spec

end TsunamiUdp.Client
