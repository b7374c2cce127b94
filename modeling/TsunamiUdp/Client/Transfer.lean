import Mathlib.Data.List.Range
import Mathlib.Logic.Function.Basic
import Mathlib.Data.Rat.Floor
import TsunamiUdp.Protocol
import TsunamiUdp.Client.Ring

/-! The client's transfer state and the retransmission bookkeeping on it
(`ttp_transfer_t`, `got_block`, and `client/protocol.c`). -/
namespace TsunamiUdp.Client
open Library

def maxRetransmissionBuffer : Nat := 2048

def defaultTableSize : Nat := 4096

structure Parameter where
  blockSize : Nat
  lossless : Bool
  losswindowMs : Nat
  history : Nat

/-- `retransmit_t`. `capHit` records that a request was dropped at the size limit. -/
structure Retransmit where
  table : Nat → Nat
  tableSize : Nat
  indexMax : Nat
  capHit : Bool

/-- `table[0..index_max)` -/
def Retransmit.entries (rexmit : Retransmit) : List Nat :=
  (List.range rexmit.indexMax).map rexmit.table

/-- `statistics_t`; `errorRate` is `none` once it is no number any more. -/
structure Statistics where
  totalBlocks : Nat
  thisBlocks : Nat
  thisRetransmits : Nat
  totalRetransmits : Nat
  totalRecvdRetransmits : Nat
  thisFlowOriginals : Nat
  thisFlowRetransmitteds : Nat
  errorRate : Option Rat

/-- `ttp_transfer_t`; `received` is the bitmap, bit by bit. -/
structure Transfer where
  fileSize : Nat
  blockCount : Nat
  nextBlock : Nat
  gaplessToBlock : Nat
  rexmit : Retransmit
  stats : Statistics
  received : Nat → Bool
  blocksLeft : Nat
  restartPending : Bool
  restartLastidx : Nat
  restartWireclearidx : Nat
  onWireEstimate : Nat

def Transfer.start (fileSize blockCount onWireEstimate : Nat) : Transfer where
  fileSize := fileSize
  blockCount := blockCount
  nextBlock := 1
  gaplessToBlock := 0
  rexmit := ⟨fun _ => 0, defaultTableSize, 0, false⟩
  stats := ⟨0, 0, 0, 0, 0, 0, 0, some 0⟩
  received := fun _ => false
  blocksLeft := blockCount
  restartPending := false
  restartLastidx := 0
  restartWireclearidx := 0
  onWireEstimate := onWireEstimate

/-- `got_block`; numbers past the end count as received. -/
def gotBlock (xfer : Transfer) (blocknr : Nat) : Bool :=
  if blocknr > xfer.blockCount then true else xfer.received blocknr

theorem gotBlock_of_le {xfer : Transfer} {b : Nat} (h : b ≤ xfer.blockCount) :
    gotBlock xfer b = xfer.received b :=
  if_neg (by omega)

theorem gotBlock_of_gt {xfer : Transfer} {b : Nat} (h : xfer.blockCount < b) :
    gotBlock xfer b = true :=
  if_pos h

theorem le_of_not_gotBlock {xfer : Transfer} {b : Nat} (h : gotBlock xfer b = false) :
    b ≤ xfer.blockCount := by
  unfold gotBlock at h
  split at h
  · cases h
  · omega

structure SameBlocks (xfer xfer' : Transfer) : Prop where
  fileSize : xfer'.fileSize = xfer.fileSize
  blockCount : xfer'.blockCount = xfer.blockCount
  received : xfer'.received = xfer.received
  blocksLeft : xfer'.blocksLeft = xfer.blocksLeft

theorem SameBlocks.refl (xfer : Transfer) : SameBlocks xfer xfer := ⟨rfl, rfl, rfl, rfl⟩

theorem SameBlocks.trans {x y z : Transfer} (h : SameBlocks x y) (h' : SameBlocks y z) :
    SameBlocks x z :=
  ⟨h'.fileSize.trans h.fileSize, h'.blockCount.trans h.blockCount,
    h'.received.trans h.received, h'.blocksLeft.trans h.blocksLeft⟩

theorem SameBlocks.gotBlock {x y : Transfer} (h : SameBlocks x y) (b : Nat) :
    gotBlock y b = gotBlock x b := by
  simp only [Client.gotBlock, h.blockCount, h.received]

inductive Room
  | ok (rexmit : Retransmit)
  | capped
  | failed

/-- The space check: the table doubles when it is full, up to a limit; `alloc` says
whether `realloc` finds that many entries. -/
def makeRoom (alloc : Nat → Bool) (rexmit : Retransmit) : Room :=
  if rexmit.indexMax ≥ rexmit.tableSize then
    if rexmit.indexMax ≥ 32 * maxRetransmissionBuffer then .capped
    else if alloc (2 * rexmit.tableSize) then
      .ok { rexmit with
        table := fun i => if rexmit.tableSize ≤ i ∧ i < 2 * rexmit.tableSize then 0
          else rexmit.table i
        tableSize := 2 * rexmit.tableSize }
    else .failed
  else .ok rexmit

def Retransmit.append (rexmit : Retransmit) (block : Nat) : Retransmit :=
  { rexmit with
    table := Function.update rexmit.table rexmit.indexMax block
    indexMax := rexmit.indexMax + 1 }

/-- `ttp_request_retransmit`; `none` is its failure return. -/
def ttpRequestRetransmit (alloc : Nat → Bool) (xfer : Transfer) (block : Nat) : Option Transfer :=
  if gotBlock xfer block then some xfer
  else match makeRoom alloc xfer.rexmit with
    | .ok rexmit => some { xfer with rexmit := rexmit.append block }
    | .capped => some { xfer with rexmit := { xfer.rexmit with capHit := true } }
    | .failed => none

def requestRange (alloc : Nat → Bool) : Nat → Nat → Transfer → Option Transfer
  | 0, _, xfer => some xfer
  | n + 1, block, xfer =>
    (ttpRequestRetransmit alloc xfer block).bind fun xfer' => requestRange alloc n (block + 1) xfer'

@[simp] theorem entries_length (rexmit : Retransmit) : rexmit.entries.length = rexmit.indexMax := by
  simp [Retransmit.entries]

@[simp] theorem entries_append (rexmit : Retransmit) (block : Nat) :
    (rexmit.append block).entries = rexmit.entries ++ [block] := by
  simp only [Retransmit.entries, Retransmit.append, List.range_succ, List.map_append,
    List.map_cons, List.map_nil, Function.update_self]
  congr 1
  apply List.map_congr_left
  intro k hk
  exact Function.update_of_ne (by have := List.mem_range.mp hk; omega) _ _

structure Retransmit.Sized (rexmit : Retransmit) : Prop where
  room : rexmit.indexMax ≤ rexmit.tableSize
  size_pos : 0 < rexmit.tableSize

theorem makeRoom_ok {alloc : Nat → Bool} {rexmit rexmit' : Retransmit}
    (h : makeRoom alloc rexmit = .ok rexmit') (hsized : rexmit.Sized) :
    rexmit'.entries = rexmit.entries ∧ rexmit'.capHit = rexmit.capHit ∧
      (∀ block, (rexmit'.append block).Sized) := by
  obtain ⟨hroom, hpos⟩ := hsized
  unfold makeRoom at h
  split at h
  · split at h
    · cases h
    · split at h
      · cases h
        refine ⟨?_, rfl, fun block => ?_⟩
        · apply List.map_congr_left
          intro k hk
          have hlt : k < rexmit.indexMax := List.mem_range.mp hk
          exact if_neg (by omega)
        · constructor
          · dsimp only [Retransmit.append]
            omega
          · dsimp only [Retransmit.append]
            omega
      · cases h
  · cases h
    refine ⟨rfl, rfl, fun block => ?_⟩
    constructor
    · dsimp only [Retransmit.append]
      omega
    · exact hpos

theorem ttpRequestRetransmit_frame {alloc : Nat → Bool} {xfer xfer' : Transfer} {block : Nat}
    (h : ttpRequestRetransmit alloc xfer block = some xfer') :
    ∃ rexmit, xfer' = { xfer with rexmit := rexmit } := by
  unfold ttpRequestRetransmit at h
  split at h
  · cases h
    exact ⟨xfer.rexmit, rfl⟩
  · split at h <;> cases h
    · exact ⟨_, rfl⟩
    · exact ⟨_, rfl⟩

theorem requestRange_frame {alloc : Nat → Bool} {n block : Nat} {xfer xfer' : Transfer}
    (h : requestRange alloc n block xfer = some xfer') :
    ∃ rexmit, xfer' = { xfer with rexmit := rexmit } := by
  induction n generalizing block xfer with
  | zero =>
    cases h
    exact ⟨xfer'.rexmit, rfl⟩
  | succ n ih =>
    obtain ⟨mid, hmid, h⟩ := Option.bind_eq_some_iff.mp h
    obtain ⟨r, rfl⟩ := ttpRequestRetransmit_frame hmid
    obtain ⟨r', rfl⟩ := ih h
    exact ⟨r', rfl⟩

/-- What `ttp_repeat_retransmit` does to the table while it reads it: it keeps the
wanted entries at the front, and stops when the request array is full. -/
def purge (xfer : Transfer) : Nat → Nat → List Nat → (Nat → Nat) → List Nat × (Nat → Nat)
  | 0, _, blocks, table => (blocks, table)
  | left + 1, entry, blocks, table =>
    if blocks.length < maxRetransmissionBuffer then
      let block := table entry
      if block ≠ 0 ∧ gotBlock xfer block = false then
        purge xfer left (entry + 1) (blocks ++ [block])
          (Function.update table blocks.length block)
      else purge xfer left (entry + 1) blocks table
    else (blocks, table)

/-- The non-zero entries of the table that have not been received. -/
def outstanding (xfer : Transfer) : List Nat :=
  xfer.rexmit.entries.filter fun b => b ≠ 0 ∧ gotBlock xfer b = false

def compacted (blocks : List Nat) (table : Nat → Nat) : Nat → Nat :=
  fun k => if h : k < blocks.length then blocks[k] else table k

theorem compacted_of_ge {blocks : List Nat} {table : Nat → Nat} {k : Nat} (h : blocks.length ≤ k) :
    compacted blocks table k = table k :=
  dif_neg (by omega)

theorem compacted_append (blocks : List Nat) (table : Nat → Nat) (b : Nat) :
    Function.update (compacted blocks table) blocks.length b = compacted (blocks ++ [b]) table := by
  funext k
  rcases Nat.lt_trichotomy k blocks.length with h | h | h
  · rw [Function.update_of_ne (by omega)]
    simp [compacted, h, Nat.lt_succ_of_lt h, List.getElem_append_left h]
  · subst h
    simp [compacted]
  · rw [Function.update_of_ne (by omega), compacted_of_ge (by omega),
      compacted_of_ge (by simp; omega)]

@[simp] theorem map_compacted (blocks : List Nat) (table : Nat → Nat) :
    (List.range blocks.length).map (compacted blocks table) = blocks := by
  apply List.ext_getElem
  · simp
  · intro k hk hk'
    simp [compacted, hk']

/-- The loop invariant: the front of the table is the request array, and everything
from the reading position on is still as it was. -/
theorem purge_eq (xfer : Transfer) (table : Nat → Nat) (left entry : Nat) (blocks : List Nat)
    (hcount : blocks.length ≤ entry) (hmax : blocks.length ≤ maxRetransmissionBuffer) :
    purge xfer left entry blocks (compacted blocks table) =
      let kept := (blocks ++ ((List.range' entry left).map table).filter
        fun b => b ≠ 0 ∧ gotBlock xfer b = false).take maxRetransmissionBuffer
      (kept, compacted kept table) := by
  induction left generalizing entry blocks with
  | zero => simp [purge, List.take_of_length_le hmax]
  | succ left ih =>
    rw [purge]
    split
    · rename_i hroom
      simp only [compacted_of_ge hcount, List.range'_succ, List.map_cons]
      split
      · rename_i hwant
        rw [compacted_append, ih _ _ (by simp; omega) (by simp; omega),
          List.filter_cons_of_pos (by simpa using hwant), List.append_assoc]
        rfl
      · rename_i hskip
        rw [ih _ _ (by omega) hmax, List.filter_cons_of_neg (by simpa using hskip)]
    · rename_i hfull
      have hlen : blocks.length = maxRetransmissionBuffer := by omega
      simp [hlen]

theorem purge_entries (xfer : Transfer) :
    purge xfer xfer.rexmit.indexMax 0 [] xfer.rexmit.table =
      let kept := (outstanding xfer).take maxRetransmissionBuffer
      (kept, compacted kept xfer.rexmit.table) := by
  have h := purge_eq xfer xfer.rexmit.table xfer.rexmit.indexMax 0 [] le_rfl (Nat.zero_le _)
  have hover : compacted [] xfer.rexmit.table = xfer.rexmit.table := by
    funext k
    exact compacted_of_ge (Nat.zero_le _)
  rw [hover] at h
  simpa [outstanding, Retransmit.entries, List.range_eq_range'] using h

theorem mem_take_filter {α : Type} {p : α → Bool} {l : List α} {n : Nat} {a : α}
    (h : a ∈ l.take n) (ha : p a = true) : a ∈ (l.filter p).take n := by
  induction l generalizing n with
  | nil => simp at h
  | cons x l ih =>
    cases n with
    | zero => simp at h
    | succ n =>
      rw [List.take_succ_cons, List.mem_cons] at h
      by_cases hx : p x = true
      · rw [List.filter_cons_of_pos hx, List.take_succ_cons, List.mem_cons]
        exact h.imp id ih
      · rw [List.filter_cons_of_neg hx]
        rcases h with rfl | h
        · exact absurd ha hx
        · exact (List.take_subset_take_left _ (Nat.le_succ n)) (ih h)

theorem outstanding_length_le (xfer : Transfer) :
    (outstanding xfer).length ≤ xfer.rexmit.indexMax := by
  rw [← entries_length xfer.rexmit]
  exact List.length_filter_le _ _

theorem mem_overlaid (xfer : Transfer) (b : Nat) (hb : b ∈ outstanding xfer) :
    b ∈ (List.range xfer.rexmit.indexMax).map
      (compacted ((outstanding xfer).take maxRetransmissionBuffer) xfer.rexmit.table) := by
  have hle := outstanding_length_le xfer
  obtain ⟨hent, hwant⟩ := List.mem_filter.mp hb
  obtain ⟨k, hk, rfl⟩ := List.mem_map.mp hent
  have hkmax : k < xfer.rexmit.indexMax := List.mem_range.mp hk
  by_cases hfront : k < ((outstanding xfer).take maxRetransmissionBuffer).length
  · have hmem : xfer.rexmit.table k ∈ (outstanding xfer).take maxRetransmissionBuffer := by
      refine mem_take_filter ?_ hwant
      rw [List.length_take] at hfront
      exact List.mem_take_iff_getElem.mpr ⟨k, by simp [Retransmit.entries]; omega,
        by simp [Retransmit.entries]⟩
    obtain ⟨j, hj, hjk⟩ := List.mem_iff_getElem.mp hmem
    refine List.mem_map.mpr ⟨j, List.mem_range.mpr ?_, ?_⟩
    · rw [List.length_take] at hj
      omega
    · rw [compacted, dif_pos hj, hjk]
  · exact List.mem_map.mpr ⟨k, hk, compacted_of_ge (by omega)⟩

/-- How writing to the control channel ends: `fwrite` may fail, or `fflush` after it. -/
inductive WriteResult
  | ok
  | fwriteFails
  | fflushFails
deriving DecidableEq

structure Written where
  ok : Bool
  xfer : Transfer
  sent : List Retransmission

def ttpRepeatRetransmit (write : WriteResult) (xfer : Transfer) : Written :=
  let (blocks, table) := purge xfer xfer.rexmit.indexMax 0 [] xfer.rexmit.table
  let xfer := { xfer with
    rexmit := { xfer.rexmit with table := table }
    stats := { xfer.stats with thisRetransmits := 0 } }
  if blocks.length ≥ maxRetransmissionBuffer then
    let block := min xfer.blockCount (wrap32 (xfer.gaplessToBlock + 1))
    let lastidx := xfer.rexmit.table (xfer.rexmit.indexMax - 1)
    let restarted := { xfer with
      restartPending := true
      restartLastidx := lastidx
      restartWireclearidx := min xfer.blockCount (wrap32 (lastidx + xfer.onWireEstimate))
      rexmit := { xfer.rexmit with indexMax := 0 }
      nextBlock := block
      stats := { xfer.stats with thisRetransmits := maxRetransmissionBuffer } }
    match write with
    | .ok => ⟨true, restarted, [⟨requestRestart, block, 0⟩]⟩
    | .fwriteFails => ⟨false, xfer, []⟩
    | .fflushFails => ⟨false, restarted, []⟩
  else
    let xfer := { xfer with
      rexmit := { xfer.rexmit with indexMax := blocks.length }
      stats := { xfer.stats with
        thisRetransmits := blocks.length
        totalRetransmits := wrap32 (xfer.stats.totalRetransmits + blocks.length) } }
    if write = .ok ∨ (write = .fwriteFails ∧ blocks = []) then
      ⟨true, xfer, blocks.map fun b => ⟨requestRetransmit, b, 0⟩⟩
    else ⟨false, xfer, []⟩

def ttpRequestStop : Retransmission := ⟨requestStop, 0, 0⟩

def Statistics.retransmitsFraction (stats : Statistics) : Option Rat :=
  let all : Rat := 1 + stats.thisRetransmits + stats.totalBlocks - stats.thisBlocks
  if all = 0 then none else some (stats.thisRetransmits / all)

/-- A quotient of integers: a divisor of 0 ends the process. -/
def Statistics.totalRetransmitsFraction (stats : Statistics) : Option Nat :=
  let all := wrap32 (stats.totalRetransmits + stats.totalBlocks)
  if all = 0 then none else some (stats.totalRetransmits / all)

/-- The conversion to an integer is undefined for what is no number. -/
def reportedRate : Option Rat → Nat
  | none => 0
  | some errorRate => wrap32 ⌊errorRate⌋.toNat

/-- `ttp_update_stats`: the filtered error rate goes to the server, and the counters
of the interval start again. -/
def ttpUpdateStats (param : Parameter) (write : WriteResult) (countData : Int) (xfer : Transfer) :
    Option Written :=
  let stats := xfer.stats
  -- for the screen only
  stats.totalRetransmitsFraction.map fun _ =>
    let ringfillFraction : Rat := (countData / Ring.maxBlocksQueued : Int)
    let fb : Rat := param.history / 100
    let ff : Rat := 1 - fb
    let errorRate := stats.errorRate.bind fun errorRate =>
      stats.retransmitsFraction.map fun retransmitsFraction =>
        fb * errorRate + ff * 500 * 100 * (retransmitsFraction + ringfillFraction)
    let xfer := { xfer with stats := { stats with errorRate := errorRate } }
    if write = .ok then
      let stats := { xfer.stats with
        thisBlocks := stats.totalBlocks
        thisRetransmits := 0
        thisFlowOriginals := 0
        thisFlowRetransmitteds := 0 }
      ⟨true, { xfer with stats := stats }, [⟨requestErrorRate, 0, reportedRate errorRate⟩]⟩
    else ⟨false, xfer, []⟩

theorem ttpUpdateStats_some {param : Parameter} {write : WriteResult} {countData : Int}
    {xfer : Transfer} {updated : Written} (h : ttpUpdateStats param write countData xfer = some updated) :
    (∃ stats, updated.xfer = { xfer with stats := stats }) ∧
      (updated.sent = [] ∨ ∃ rate, updated.sent = [⟨requestErrorRate, 0, reportedRate rate⟩]) := by
  obtain ⟨-, -, rfl⟩ := Option.map_eq_some_iff.mp h
  dsimp only
  split
  · exact ⟨⟨_, rfl⟩, .inr ⟨_, rfl⟩⟩
  · exact ⟨⟨_, rfl⟩, .inl rfl⟩

theorem ttpUpdateStats_eq_none_iff {param : Parameter} {write : WriteResult} {countData : Int}
    {xfer : Transfer} :
    ttpUpdateStats param write countData xfer = none ↔
      wrap32 (xfer.stats.totalRetransmits + xfer.stats.totalBlocks) = 0 := by
  refine Option.map_eq_none_iff.trans ?_
  unfold Statistics.totalRetransmitsFraction
  dsimp only
  split <;> simp [*]

theorem reportedRate_lt (errorRate : Option Rat) : reportedRate errorRate < 4294967296 := by
  cases errorRate with
  | none => exact (by decide : 0 < 4294967296)
  | some rate => exact Nat.mod_lt _ (by decide)

/-- While fewer than `MAX_RETRANSMISSION_BUFFER` requests are outstanding, the table
shrinks to them and they are all requested again. -/
theorem ttpRepeatRetransmit_few {xfer : Transfer} (write : WriteResult)
    (h : (outstanding xfer).length < maxRetransmissionBuffer) :
    let done := ttpRepeatRetransmit write xfer
    done.xfer.rexmit.entries = outstanding xfer ∧
    (write = .ok → done.ok = true ∧
      done.sent = (outstanding xfer).map fun b => ⟨requestRetransmit, b, 0⟩) ∧
    ∃ table stats, done.xfer = { xfer with
      rexmit := ⟨table, xfer.rexmit.tableSize, (outstanding xfer).length, xfer.rexmit.capHit⟩
      stats := stats } := by
  have hpurge := purge_entries xfer
  rw [List.take_of_length_le (by omega)] at hpurge
  have hentries : ∀ c, Retransmit.entries ⟨compacted (outstanding xfer) xfer.rexmit.table,
      xfer.rexmit.tableSize, (outstanding xfer).length, c⟩ = outstanding xfer := fun c =>
    map_compacted _ _
  unfold ttpRepeatRetransmit
  simp only [hpurge]
  rw [if_neg (by omega)]
  split
  · exact ⟨hentries _, fun _ => ⟨rfl, rfl⟩, _, _, rfl⟩
  · rename_i hfail
    exact ⟨hentries _, fun hok => absurd (Or.inl hok) hfail, _, _, rfl⟩

/-- Otherwise, once the restart request is written, the table is dropped and the head
goes back behind the gapless section. -/
theorem ttpRepeatRetransmit_many {xfer : Transfer} (write : WriteResult)
    (h : maxRetransmissionBuffer ≤ (outstanding xfer).length) (hw : write ≠ .fwriteFails) :
    let done := ttpRepeatRetransmit write xfer
    let block := min xfer.blockCount (wrap32 (xfer.gaplessToBlock + 1))
    (write = .ok → done.ok = true ∧ done.sent = [⟨requestRestart, block, 0⟩]) ∧
    ∃ rexmit stats last clear, rexmit.indexMax = 0 ∧ rexmit.tableSize = xfer.rexmit.tableSize ∧
      rexmit.capHit = xfer.rexmit.capHit ∧
      done.xfer = { xfer with
        rexmit := rexmit
        stats := stats
        nextBlock := block
        restartPending := true
        restartLastidx := last
        restartWireclearidx := clear } := by
  have hpurge := purge_entries xfer
  have hlen := List.length_take_of_le h
  unfold ttpRepeatRetransmit
  simp only [hpurge]
  rw [if_pos (by omega)]
  cases write with
  | ok =>
    refine ⟨fun _ => ⟨rfl, rfl⟩, _, _, _, _, ?_, ?_, ?_, rfl⟩
    all_goals rfl
  | fwriteFails => exact absurd rfl hw
  | fflushFails =>
    refine ⟨fun hok => absurd hok (by decide), _, _, _, _, ?_, ?_, ?_, rfl⟩
    all_goals rfl

/-- A restart that could not be written leaves a partly compacted table, with
everything outstanding still in it. -/
theorem ttpRepeatRetransmit_lost {xfer : Transfer}
    (h : maxRetransmissionBuffer ≤ (outstanding xfer).length) :
    let done := ttpRepeatRetransmit .fwriteFails xfer
    (∀ b ∈ outstanding xfer, b ∈ done.xfer.rexmit.entries) ∧ done.ok = false ∧ done.sent = [] ∧
      ∃ table stats, done.xfer = { xfer with
        rexmit := { xfer.rexmit with table := table }
        stats := stats } := by
  have hpurge := purge_entries xfer
  have hlen := List.length_take_of_le h
  unfold ttpRepeatRetransmit
  simp only [hpurge]
  rw [if_pos (by omega)]
  exact ⟨mem_overlaid xfer, rfl, rfl, _, _, rfl⟩

end TsunamiUdp.Client
