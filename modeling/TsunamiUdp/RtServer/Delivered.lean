import TsunamiUdp.Library.Runs
import TsunamiUdp.RtServer.Datagram

/-! Whether the datagrams of the realtime server hold the blocks they are labelled with. -/
namespace TsunamiUdp.RtServer
open Library

structure Call where
  blockIndex : Nat
  blockType : Nat

def Call.step (param : Parameter) (vsib : Nat → UInt8) (builder : Builder) (call : Call) :
    Option Builder :=
  some (buildDatagram param vsib call.blockIndex call.blockType builder)

def Builder.opened (lastWritten : Nat) (datagram : List UInt8) : Builder :=
  ⟨0, lastWritten, 0, [], datagram⟩

/-- The datagram has the number of the block in its header, and its bytes behind that. -/
def Delivers (param : Parameter) (vsib : Nat → UInt8) (builder : Builder) (call : Call) : Prop :=
  let datagram := (buildDatagram param vsib call.blockIndex call.blockType builder).datagram
  datagram.take 6 = datagramHeader call.blockIndex call.blockType ∧
    (datagram.drop 6).take param.blockSize =
      readVsibBlock vsib (blockStart param.blockSize call.blockIndex) param.blockSize

section Calls
variable {param : Parameter} {vsib : Nat → UInt8} {builder : Builder} {call : Call}

@[simp] theorem resetStatics_datagram (block : Nat) (builder : Builder) :
    (resetStatics block builder).datagram = builder.datagram := by
  unfold resetStatics
  split <;> rfl

@[simp] theorem storeBlock_datagram (block : Nat) (bytes : List UInt8) (builder : Builder) :
    (storeBlock param block bytes builder).datagram = builder.datagram := by
  unfold storeBlock
  split <;> rfl

theorem delivers_iff : Delivers param vsib builder call ↔
    payload param vsib call.blockIndex builder =
      readVsibBlock vsib (blockStart param.blockSize call.blockIndex) param.blockSize := by
  have hlen : (payload param vsib call.blockIndex builder).length = param.blockSize :=
    readVsibBlock_length _ _ _
  have hdatagram : (buildDatagram param vsib call.blockIndex call.blockType builder).datagram =
      datagramHeader call.blockIndex call.blockType ++
        (payload param vsib call.blockIndex builder ++ builder.datagram.drop (6 + param.blockSize)) := by
    unfold buildDatagram payload
    dsimp only
    rw [storeBlock_datagram, resetStatics_datagram, List.append_assoc]
  unfold Delivers
  rw [hdatagram]
  dsimp only
  rw [List.take_left' (datagramHeader_length _ _), List.drop_left' (datagramHeader_length _ _),
    List.take_left' hlen]
  exact and_iff_right rfl

theorem delivers_later (h1 : 1 ≤ call.blockIndex) (hle : call.blockIndex ≤ param.blockCount)
    (hlast : builder.lastBlock = 0) (hne : call.blockIndex ≠ 1) : Delivers param vsib builder call := by
  have hnarrow : param.blockCount < 4294967296 := Nat.mod_lt _ (by decide)
  exact delivers_iff.mpr (payload_later builder (by omega) (by omega) hlast)

theorem vsibPosition_build (param : Parameter) (vsib : Nat → UInt8) (builder : Builder) (call : Call) :
    param.blockSize ≤
      (buildDatagram param vsib call.blockIndex call.blockType builder).vsibPosition :=
  Nat.le_add_left _ _

def marked (blockSize position : Nat) : UInt8 := if position < blockSize then 0 else 1

theorem not_delivers_one (hone : call.blockIndex = 1) (hpos : param.blockSize ≤ builder.vsibPosition) :
    ¬Delivers param (marked param.blockSize) builder call := by
  intro h
  have hread := delivers_iff.mp h
  have hsize := param.size_pos
  have hposition : readPosition param 1 (resetStatics 1 builder) = builder.vsibPosition := rfl
  rw [hone, payload, hposition] at hread
  have hfirst := congrArg (fun bytes : List UInt8 => bytes[0]?) hread
  rw [readVsibBlock_getElem?, readVsibBlock_getElem?, if_pos hsize, if_pos hsize] at hfirst
  have hother : marked param.blockSize (builder.vsibPosition + 0) = 1 := if_neg (by omega)
  have hthere : marked param.blockSize (blockStart param.blockSize 1 + 0) = 0 := if_pos hsize
  rw [hother, hthere] at hfirst
  cases hfirst

end Calls

section Transfer
variable {param : Parameter} {calls : List Call} {builder : Builder}

theorem along_later (vsib : Nat → UInt8) (hlast : builder.lastBlock = 0)
    (hcalls : ∀ c ∈ calls, 1 ≤ c.blockIndex ∧ c.blockIndex ≤ param.blockCount)
    (h : ∀ c ∈ calls, c.blockIndex ≠ 1) :
    Along (Call.step param vsib) (Delivers param vsib) builder calls := by
  induction calls generalizing builder with
  | nil => trivial
  | cons call calls ih =>
    obtain ⟨h1, hle⟩ := hcalls call List.mem_cons_self
    refine ⟨delivers_later h1 hle hlast (h call List.mem_cons_self), ?_⟩
    rintro _ ⟨⟩
    exact ih (buildDatagram_lastBlock hlast) (fun c hc => hcalls c (List.mem_cons_of_mem call hc))
      fun c hc => h c (List.mem_cons_of_mem call hc)

theorem along_marked (hpos : param.blockSize ≤ builder.vsibPosition)
    (h : Along (Call.step param (marked param.blockSize)) (Delivers param (marked param.blockSize))
      builder calls) : ∀ c ∈ calls, c.blockIndex ≠ 1 := by
  induction calls generalizing builder with
  | nil => exact fun c hc => absurd hc List.not_mem_nil
  | cons call calls ih =>
    obtain ⟨hhead, htail⟩ := h
    intro c hc hone
    rcases List.mem_cons.mp hc with rfl | hmem
    · exact not_delivers_one hone hpos hhead
    · exact ih (vsibPosition_build _ _ _ _) (htail _ rfl) c hmem hone

end Transfer

/-- In a transfer all datagrams hold their blocks, whatever the VSIB delivers, if and only if
block 1 is built by the first call only. -/
theorem delivered_iff (param : Parameter) (lastWritten : Nat) (datagram : List UInt8)
    (calls : List Call) (hcalls : ∀ c ∈ calls, 1 ≤ c.blockIndex ∧ c.blockIndex ≤ param.blockCount) :
    (∀ vsib, Along (Call.step param vsib) (Delivers param vsib) (.opened lastWritten datagram) calls) ↔
      ∀ c ∈ calls.tail, c.blockIndex ≠ 1 := by
  cases calls with
  | nil => exact iff_of_true (fun _ => trivial) fun c hc => absurd hc List.not_mem_nil
  | cons call calls =>
    constructor
    · intro h
      exact along_marked (vsibPosition_build _ _ _ call) ((h (marked param.blockSize)).2 _ rfl)
    · intro h vsib
      refine ⟨?_, ?_⟩
      · obtain ⟨h1, hle⟩ := hcalls call List.mem_cons_self
        by_cases hone : call.blockIndex = 1
        · rw [delivers_iff, hone]
          exact payload_one rfl
        · exact delivers_later h1 hle rfl hone
      · rintro _ ⟨⟩
        exact along_later vsib (buildDatagram_lastBlock rfl)
          (fun c hc => hcalls c (List.mem_cons_of_mem call hc)) h

def threeBlocks : Parameter := ⟨2, 6, false, by decide, by decide⟩

theorem delivered_iff_sample :
    Along (Call.step threeBlocks UInt8.ofNat) (Delivers threeBlocks UInt8.ofNat) (.opened 0 [])
      [⟨1, tsBlockOriginal⟩, ⟨2, tsBlockOriginal⟩, ⟨2, tsBlockRetransmission⟩, ⟨3, tsBlockTerminate⟩] :=
  (delivered_iff threeBlocks 0 [] _ (by decide)).mpr (by decide) UInt8.ofNat

/-- The retransmission of block 1 behind block 2 holds block 3. -/
theorem first_block_not_sought :
    ∃ builder, run (Call.step threeBlocks fun k => UInt8.ofNat k) (.opened 0 [])
        [⟨1, tsBlockOriginal⟩, ⟨2, tsBlockOriginal⟩, ⟨1, tsBlockRetransmission⟩] = some builder ∧
      builder.datagram = datagramHeader 1 tsBlockRetransmission ++ [4, 5] ∧
      ¬∀ vsib, Along (Call.step threeBlocks vsib) (Delivers threeBlocks vsib) (.opened 0 [])
        [⟨1, tsBlockOriginal⟩, ⟨2, tsBlockOriginal⟩, ⟨1, tsBlockRetransmission⟩] := by
  refine ⟨_, rfl, by decide, fun h => ?_⟩
  obtain ⟨-, htail⟩ := h (marked threeBlocks.blockSize)
  exact along_marked (vsibPosition_build _ _ _ _) (htail _ rfl) ⟨1, tsBlockRetransmission⟩
    (by simp) rfl

end TsunamiUdp.RtServer
