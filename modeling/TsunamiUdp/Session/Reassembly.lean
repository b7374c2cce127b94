import Mathlib.Data.Set.Lattice
import Mathlib.Order.CompletePartialOrder
import Mathlib.Order.Interval.Set.Disjoint
import TsunamiUdp.Client.Disk
import TsunamiUdp.Control.Server

/-! The blocks of a file on their way from `build_datagram` to `accept_block`: what the
client writes for each of them, and that together they are the file. -/
namespace TsunamiUdp
open Library Client

/-- The client's transfer of a file as the server describes it, which keeps the number of
blocks in 32 bits. -/
def announced (fileSize blockSize onWireEstimate : Nat) : Transfer :=
  .start fileSize (wrap32 (blocksOf fileSize blockSize)) onWireEstimate

theorem describeFile_announced {side : Control.ServerSide} (epoch onWireEstimate : Nat)
    (hsize : side.param.blockSize ≠ 0) (hrate : side.targetRate ≠ 0) :
    (Control.describeFile epoch side).1.param.blockCount =
      (announced side.xfer.builder.file.contents.length side.param.blockSize
        onWireEstimate).blockCount := by
  unfold Control.describeFile
  rw [if_neg hsize]
  dsimp only
  rw [if_neg hrate]
  rfl

/-- The bytes of the file that `accept_block` writes for a block. -/
def writtenRange (param : Parameter) (xfer : Transfer) (block : Nat) : Set Nat :=
  let offset := param.blockSize * wrap32 (block + 4294967295)
  Set.Ico offset (offset + writeSize param xfer block)

/-- The ranges of blocks `1..block_count` do not overlap, and they are the whole file. -/
structure Tiled (param : Parameter) (xfer : Transfer) : Prop where
  disjoint : (Set.Icc 1 xfer.blockCount).PairwiseDisjoint (writtenRange param xfer)
  union : ⋃ block ∈ Set.Icc 1 xfer.blockCount, writtenRange param xfer block =
    Set.Ico 0 xfer.fileSize

section Ranges
variable {param : Parameter} {xfer : Transfer} {block : Nat}

theorem acceptBlock_inside {payload file : List UInt8} {count k : Nat}
    (hfull : writeSize param xfer block ≤ payload.length) (hall : writeSize param xfer block ≤ count)
    (hk : k ∈ writtenRange param xfer block) :
    (acceptBlock param xfer (.wrote count) block payload file).file[k]? =
      payload[k - param.blockSize * wrap32 (block + 4294967295)]? := by
  obtain ⟨hlow, hhigh⟩ := hk
  have hlen : ((payload.take (writeSize param xfer block)).take count).length =
      writeSize param xfer block := by
    simp only [List.length_take]
    omega
  unfold acceptBlock
  dsimp only
  rw [writeAt_inside hlow (by omega), List.take_take, List.getElem?_take, if_pos (by omega)]

theorem acceptBlock_outside {payload file : List UInt8} {count k : Nat} (hlen : k < file.length)
    (hfull : writeSize param xfer block ≤ payload.length) (hall : writeSize param xfer block ≤ count)
    (hk : k ∉ writtenRange param xfer block) :
    (acceptBlock param xfer (.wrote count) block payload file).file[k]? = file[k]? := by
  have hdata : ((payload.take (writeSize param xfer block)).take count).length =
      writeSize param xfer block := by
    simp only [List.length_take]
    omega
  unfold writtenRange at hk
  rw [Set.mem_Ico, not_and_or] at hk
  unfold acceptBlock
  dsimp only
  rcases hk with hbefore | hbehind
  · exact writeAt_before (by omega) hlen
  · exact writeAt_behind (by omega)

theorem writtenRange_offset (hlt : block < 4294967296) (h1 : 1 ≤ block) :
    writtenRange param xfer block =
      Set.Ico (blockStart param.blockSize block)
        (blockStart param.blockSize block + writeSize param xfer block) := by
  unfold writtenRange
  rw [Server.wrap32_pred h1 hlt]
  rfl

theorem writtenRange_subset (hbs : 0 < param.blockSize) (hlt : block < 4294967296) (h1 : 1 ≤ block) :
    writtenRange param xfer block ⊆
      Set.Ico (blockStart param.blockSize block) (param.blockSize * block) := by
  have hwrite : writeSize param xfer block ≤ param.blockSize := writeSize_le hbs
  have hend := blockStart_add param.blockSize h1
  rw [writtenRange_offset hlt h1]
  exact Set.Ico_subset_Ico_right (by omega)

theorem writtenRange_disjoint (hbs : 0 < param.blockSize) {i j : Nat} (hi : 1 ≤ i) (hij : i < j)
    (hj : j < 4294967296) : Disjoint (writtenRange param xfer i) (writtenRange param xfer j) := by
  have hmul : param.blockSize * i ≤ blockStart param.blockSize j :=
    Nat.mul_le_mul_left _ (by omega)
  refine Set.disjoint_of_subset (writtenRange_subset hbs (by omega) hi)
    (writtenRange_subset hbs hj (by omega)) ?_
  rw [Set.disjoint_left]
  rintro k ⟨-, hki⟩ ⟨hkj, -⟩
  omega

theorem mem_writtenRange (hbs : 0 < param.blockSize)
    (hcount : xfer.blockCount = blocksOf xfer.fileSize param.blockSize)
    (hnarrow : xfer.blockCount < 4294967296) {k : Nat} :
    k < xfer.fileSize ↔ ∃ i ∈ Set.Icc 1 xfer.blockCount, k ∈ writtenRange param xfer i := by
  constructor
  · intro hk
    have hdiv := Nat.div_add_mod k param.blockSize
    have hmod := Nat.mod_lt k hbs
    have hsize : xfer.fileSize ≤ param.blockSize * blocksOf xfer.fileSize param.blockSize :=
      size_le_blocks hbs
    have hle : k / param.blockSize + 1 ≤ xfer.blockCount :=
      hcount ▸ Nat.div_lt_of_lt_mul (by omega)
    refine ⟨k / param.blockSize + 1, ⟨Nat.succ_pos _, hle⟩, ?_⟩
    rw [writtenRange_offset (by omega) (Nat.succ_pos _),
      writeSize_eq hbs (by omega) hcount (Nat.succ_pos _) hle, blockStart_succ]
    constructor <;> omega
  · rintro ⟨i, ⟨h1, hle⟩, hk⟩
    have hstart := blockStart_lt_size hbs h1 (hcount ▸ hle)
    rw [writtenRange_offset (by omega) h1, writeSize_eq hbs (by omega) hcount h1 hle] at hk
    obtain ⟨-, hk⟩ := hk
    omega

end Ranges

/-- The announced blocks are the file if and only if their number fits in 32 bits. -/
theorem tiled_iff (param : Parameter) (hbs : 1 ≤ param.blockSize) (fileSize onWireEstimate : Nat) :
    Tiled param (announced fileSize param.blockSize onWireEstimate) ↔
      blocksOf fileSize param.blockSize < 4294967296 := by
  have hnarrow : (announced fileSize param.blockSize onWireEstimate).blockCount < 4294967296 :=
    Nat.mod_lt _ (by decide)
  constructor
  · rintro ⟨-, hunion⟩
    by_contra hwide
    have hmore : (announced fileSize param.blockSize onWireEstimate).blockCount <
        blocksOf fileSize param.blockSize := by omega
    -- the byte behind the last block that is announced is in none of them
    have hlast := blocks_before_lt_size hbs hmore
    have hmem : param.blockSize * (announced fileSize param.blockSize onWireEstimate).blockCount ∈
        Set.Ico 0 fileSize := ⟨Nat.zero_le _, hlast⟩
    rw [show fileSize = (announced fileSize param.blockSize onWireEstimate).fileSize from rfl,
      ← hunion] at hmem
    obtain ⟨i, ⟨h1, hle⟩, hk⟩ := Set.mem_iUnion₂.mp hmem
    have hbelow := (writtenRange_subset hbs (by omega) h1 hk).2
    exact absurd hbelow (Nat.not_lt.mpr (Nat.mul_le_mul_left _ hle))
  · intro hfits
    have hcount : (announced fileSize param.blockSize onWireEstimate).blockCount =
        blocksOf fileSize param.blockSize := Nat.mod_eq_of_lt hfits
    constructor
    · intro i hi j hj hne
      rcases Nat.lt_or_gt_of_ne hne with hij | hji
      · exact writtenRange_disjoint hbs hi.1 hij (hj.2.trans_lt hnarrow)
      · exact (writtenRange_disjoint hbs hj.1 hji (hi.2.trans_lt hnarrow)).symm
    · ext k
      rw [Set.mem_iUnion₂, Set.mem_Ico]
      exact ⟨fun ⟨i, hi, hk⟩ => ⟨Nat.zero_le k,
          (mem_writtenRange hbs hcount hnarrow).mpr ⟨i, hi, hk⟩⟩,
        fun ⟨_, hk⟩ => by
          obtain ⟨i, hi, hmem⟩ := (mem_writtenRange hbs hcount hnarrow).mp hk
          exact ⟨i, hi, hmem⟩⟩

theorem tiled_iff_sample : Tiled ⟨4, true, 0, 25⟩ (announced 10 4 0) :=
  (tiled_iff ⟨4, true, 0, 25⟩ (by decide) 10 0).mpr (by decide)

/-- Of 4 TiB in blocks of 1024 bytes, the default size, no block is announced at all. -/
theorem not_tiled : ¬Tiled ⟨1024, true, 0, 25⟩ (announced 4398046511104 1024 0) := by
  rintro ⟨-, hunion⟩
  have hmem : 0 ∈ Set.Ico 0 (announced 4398046511104 1024 0).fileSize := ⟨le_rfl, by decide⟩
  rw [← hunion] at hmem
  obtain ⟨i, ⟨h1, hle⟩, -⟩ := Set.mem_iUnion₂.mp hmem
  exact absurd (h1.trans hle) (by decide)

/-- A block as it comes to `accept_block`: its bytes, filled up to the block size by
whatever stood in the buffer, and how much of it `fwrite` takes. -/
structure Segment (blockSize : Nat) (contents : List UInt8) where
  block : Nat
  filler : List UInt8
  count : Nat
  first : 1 ≤ block
  last : block ≤ blocksOf contents.length blockSize
  filled : (blockAt blockSize contents block ++ filler).length = blockSize
  taken : blockSize ≤ count

def Segment.payload {blockSize : Nat} {contents : List UInt8} (segment : Segment blockSize contents) :
    List UInt8 :=
  blockAt blockSize contents segment.block ++ segment.filler

/-- `accept_block` for each of them in turn, on an empty file. -/
def reassemble (param : Parameter) (xfer : Transfer) {contents : List UInt8}
    (segments : List (Segment param.blockSize contents)) : List UInt8 :=
  segments.foldl (fun file segment =>
    (acceptBlock param xfer (.wrote segment.count) segment.block segment.payload file).file) []

section Reassembly
variable {param : Parameter} {contents : List UInt8}

/-- The payload is the one of the datagram that `build_datagram` makes for the block. -/
theorem payload_blockDatagram (segment : Segment param.blockSize contents) (type : Nat) :
    ∃ old, (Server.blockDatagram param.blockSize contents segment.block type old).drop 6 =
      segment.payload := by
  have hlen := datagramHeader_length segment.block type
  refine ⟨List.replicate (6 + (blockAt param.blockSize contents segment.block).length) 0 ++
    segment.filler, ?_⟩
  unfold Server.blockDatagram
  dsimp only
  rw [List.drop_left' (List.length_replicate ..), List.append_assoc, List.drop_left' hlen]
  rfl

theorem reassemble_concat (xfer : Transfer) (segments : List (Segment param.blockSize contents))
    (segment : Segment param.blockSize contents) :
    reassemble param xfer (segments ++ [segment]) =
      (acceptBlock param xfer (.wrote segment.count) segment.block segment.payload
        (reassemble param xfer segments)).file := by
  rw [reassemble, List.foldl_append, List.foldl_cons, List.foldl_nil, reassemble]

theorem reassemble_assembled (hbs : 1 ≤ param.blockSize)
    (hnarrow : blocksOf contents.length param.blockSize < 4294967296) (onWireEstimate : Nat)
    (segments : List (Segment param.blockSize contents)) :
    Assembled param.blockSize contents (segments.map (·.block))
      (reassemble param (announced contents.length param.blockSize onWireEstimate) segments) := by
  have hcount : (announced contents.length param.blockSize onWireEstimate).blockCount =
      blocksOf contents.length param.blockSize := Nat.mod_eq_of_lt hnarrow
  induction segments using List.reverseRecOn with
  | nil => exact .nil _ _
  | append_singleton segments segment ih =>
    have hle := segment.last
    have hok : (acceptBlock param (announced contents.length param.blockSize onWireEstimate)
        (.wrote segment.count) segment.block segment.payload
        (reassemble param (announced contents.length param.blockSize onWireEstimate)
          segments)).ok = true := by
      unfold acceptBlock
      exact decide_eq_true ((writeSize_le hbs).trans segment.taken)
    rw [reassemble_concat, List.map_append]
    unfold Segment.payload at hok ⊢
    rw [acceptBlock_placed hbs rfl hcount segment.first (hcount ▸ hle) (by omega) hok]
    exact ih.write 0 hbs segment.first hle

end Reassembly

/-- Blocks that come in any order, any number of times, and each of them at least once,
are put together to the file. -/
theorem reassemble_segments (param : Parameter) (contents : List UInt8) (hbs : 1 ≤ param.blockSize)
    (hnarrow : blocksOf contents.length param.blockSize < 4294967296) (onWireEstimate : Nat)
    (segments : List (Segment param.blockSize contents))
    (hall : ∀ b, 1 ≤ b → b ≤ blocksOf contents.length param.blockSize →
      ∃ segment ∈ segments, segment.block = b) :
    reassemble param (announced contents.length param.blockSize onWireEstimate) segments =
      contents := by
  refine (reassemble_assembled hbs hnarrow onWireEstimate segments).complete hbs fun b h1 hle => ?_
  obtain ⟨segment, hmem, rfl⟩ := hall b h1 hle
  exact List.mem_map_of_mem hmem

/-- Three bytes in blocks of two; the last block comes first, and with it what an earlier
block has left behind. -/
theorem reassemble_segments_sample :
    reassemble ⟨2, true, 0, 25⟩ (announced 3 2 0)
      ([⟨2, [6], 2, by decide, by decide, by decide, by decide⟩,
        ⟨1, [], 2, by decide, by decide, by decide, by decide⟩,
        ⟨2, [9], 2, by decide, by decide, by decide, by decide⟩] : List (Segment 2 [5, 6, 7])) =
      [5, 6, 7] := by
  refine reassemble_segments ⟨2, true, 0, 25⟩ [5, 6, 7] (by decide) (by decide) 0 _ fun b h1 hle => ?_
  have hle : b ≤ 2 := hle
  have hb : b = 1 ∨ b = 2 := by omega
  rcases hb with rfl | rfl
  · exact ⟨_, List.mem_cons_of_mem _ List.mem_cons_self, rfl⟩
  · exact ⟨_, List.mem_cons_self, rfl⟩

end TsunamiUdp
