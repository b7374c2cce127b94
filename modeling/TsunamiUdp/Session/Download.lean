import TsunamiUdp.Control.CommandSet
import TsunamiUdp.Session.Saving

/-! A transfer from the request on: the parameters and the reply go over the connection between
any two machines, and each side works with what it has read. -/
namespace TsunamiUdp
open Library Control

def Control.ClientParameter.inLoop (parameter : ClientParameter) : Client.Parameter where
  blockSize := parameter.blockSize.toNat
  lossless := parameter.lossless
  losswindowMs := parameter.losswindowMs.toNat
  history := parameter.history.toNat

/-- The crude estimate of the blocks that are on the wire in half a second. -/
def Control.ClientParameter.onWireEstimate (parameter : ClientParameter) (blockCount : Nat) : Nat :=
  min blockCount
    ⌊(parameter.targetRate.toNat / 2 : Rat) / wrap32 (8 * parameter.blockSize.toNat)⌋.toNat

theorem describeFile_side (side : ServerSide) (epoch : Nat) {blockCount ipdTime : Nat}
    (hsize : side.param.blockSize ≠ 0) (hrate : side.targetRate ≠ 0)
    (hcount : wrap32 (blocksOf side.xfer.builder.file.contents.length side.param.blockSize) =
      blockCount)
    (htime : wrap32 (8000000 * side.param.blockSize / side.targetRate) = ipdTime) :
    (describeFile epoch side).1 = { side with
      place := .port
      param := { side.param with blockCount := blockCount, ipdTime := ipdTime }
      xfer := { side.xfer with ipdCurrent := wrap32 (ipdTime * 3) } } := by
  unfold describeFile
  rw [if_neg hsize]
  dsimp only
  rw [if_neg hrate, hcount, htime]

/-- A file that is asked for with parameters that the server can work with, in a server process that
has built no datagram yet. -/
structure Download where
  client : Host
  server : Host
  network : Network
  parameter : ClientParameter
  contents : List UInt8
  epoch : UInt32
  side : ServerSide
  inRange : parameter.submitted.InRange
  nonempty : 0 < contents.length
  short : contents.length < 18446744073709551616
  wide : blocksOf contents.length parameter.blockSize.toNat < 4294967295
  first : side.xfer.builder.lastBlock = 0
  memory : side.memory.length = sizeofRetransmission

namespace Download

variable (d : Download)

def stored (r : Received) : ServerSide := storeAll r.items (openFile (some d.contents) d.side).1

def describe (r : Received) : ServerSide × List UInt8 := describeFile d.epoch.toNat (d.stored r)

def announced (side : ServerSide) : Announced where
  fileSize := .ofNat side.xfer.builder.file.contents.length
  blockCount := .ofNat side.param.blockCount
  epoch := d.epoch

def exchange (fuel : Nat) : Option (ServerSide × Announced) :=
  (openTransfer d.client d.server d.network d.parameter.submitted
    (fun r => d.announced (d.describe r).1) fuel).map fun opened =>
      ((d.describe opened.1).1, opened.2)

def start (side : ServerSide) (transfer : Announced) (now : Int) (slots : Int → List UInt8) :
    System where
  server := .start (.start side.xfer side.memory now side.again)
  client := .start d.parameter.inLoop
    (.start transfer.fileSize.toNat transfer.blockCount.toNat
      (d.parameter.onWireEstimate transfer.blockCount.toNat)) slots

def blockCount : Nat := blocksOf d.contents.length d.parameter.blockSize.toNat

def ipdTime : Nat := wrap32 (8000000 * d.parameter.blockSize.toNat / d.parameter.targetRate.toNat)

def serverParameter : Server.Parameter where
  blockSize := d.parameter.blockSize.toNat
  blockCount := d.blockCount
  errorRate := d.parameter.errorRate.toNat
  ipdTime := d.ipdTime
  slowerNum := d.parameter.slowerNum.toNat
  slowerDen := d.parameter.slowerDen.toNat
  fasterNum := d.parameter.fasterNum.toNat
  fasterDen := d.parameter.fasterDen.toNat
  hbTimeout := d.side.param.hbTimeout

theorem size_range : 1 ≤ d.parameter.blockSize.toNat ∧ d.parameter.blockSize.toNat ≤ 65530 :=
  d.inRange.blockSize

def agreement : Agreement where
  order := d.server.order
  server := d.serverParameter
  client := { d.parameter.inLoop with lossless := true }
  contents := d.contents
  sameSize := rfl
  size_pos := d.size_range.1
  size_le := d.size_range.2
  nonempty := d.nonempty
  count := rfl
  narrow := by
    have hwide := d.wide
    change blocksOf _ _ < _
    omega
  lossless := rfl

theorem stored_submitted : d.stored d.parameter.submitted =
    { d.side with
      place := .parameters parameterFields
      param := { d.serverParameter with
        blockCount := d.side.param.blockCount
        ipdTime := d.side.param.ipdTime }
      targetRate := d.parameter.targetRate.toNat
      xfer := ⟨0, d.side.xfer.ipdCurrent, ⟨0, ⟨d.contents, 0⟩, d.side.xfer.builder.datagram⟩⟩ } := by
  unfold stored
  rw [storeAll_received]
  dsimp only [openFile]
  rw [d.first]
  rfl

theorem describe_submitted : (d.describe d.parameter.submitted).1 =
    { d.side with
      place := .port
      param := d.serverParameter
      targetRate := d.parameter.targetRate.toNat
      xfer := ⟨0, wrap32 (d.ipdTime * 3), ⟨0, ⟨d.contents, 0⟩, d.side.xfer.builder.datagram⟩⟩ } := by
  have hsize : d.parameter.blockSize.toNat ≠ 0 := Nat.one_le_iff_ne_zero.mp d.size_range.1
  have hrate : d.parameter.targetRate.toNat ≠ 0 := (d.parameter.submitted.inRange_iff.mp d.inRange).2.1
  have hcount : wrap32 (blocksOf d.contents.length d.parameter.blockSize.toNat) = d.blockCount := by
    apply wrap32_of_lt
    have hwide := d.wide
    omega
  rw [describe, stored_submitted]
  exact describeFile_side _ d.epoch.toNat hsize hrate hcount rfl

/-- What the client reads of the reply: everything but the epoch, which both machines must keep. -/
def arrived : Announced :=
  { d.announced (d.describe d.parameter.submitted).1 with
    epoch := if d.server.KeepsTime ∧ d.client.KeepsTime then d.epoch else 0 }

theorem arrived_fileSize : d.arrived.fileSize.toNat = d.contents.length := by
  unfold arrived
  rw [describe_submitted]
  exact UInt64.toNat_ofNat_of_lt d.short

theorem arrived_blockCount : d.arrived.blockCount.toNat = d.blockCount := by
  have hwide := d.wide
  unfold arrived
  rw [describe_submitted]
  apply UInt32.toNat_ofNat_of_lt
  change blocksOf _ _ < 4294967296
  omega

theorem exchange_eq {fuel : Nat} (hfuel : 8 < fuel) :
    d.exchange fuel = some ((d.describe d.parameter.submitted).1, d.arrived) := by
  have hsize : d.parameter.submitted.blockSize ≠ 0 := by
    intro hzero
    have hrange := d.inRange.blockSize.1
    rw [hzero] at hrange
    exact absurd hrange (by decide)
  unfold exchange
  rw [openTransfer_eq d.client d.server d.network hsize d.inRange.targetRate _ hfuel]
  rfl

theorem start_eq (now : Int) (slots : Int → List UInt8) :
    d.start (d.describe d.parameter.submitted).1 d.arrived now slots =
      .startIn d.agreement d.parameter.inLoop (wrap32 (d.ipdTime * 3))
        d.side.xfer.builder.datagram d.side.memory now d.side.again
        (d.parameter.onWireEstimate d.blockCount) slots := by
  unfold start
  rw [arrived_fileSize, arrived_blockCount, describe_submitted]
  rfl

theorem inLoop_lossless (h : d.parameter.lossless = true) : d.parameter.inLoop = d.agreement.client := by
  unfold agreement ClientParameter.inLoop
  rw [h]

end Download

@[simp] theorem stepIn_client (a : Agreement) : System.stepIn a a.client = System.step a := by
  funext s action
  cases action <;> rfl

@[simp] theorem startIn_client (a : Agreement) (ipd : Rat) (datagram memory : List UInt8) (now : Int)
    (again : Bool) (onWireEstimate : Nat) (slots : Int → List UInt8) :
    System.startIn a a.client ipd datagram memory now again onWireEstimate slots =
      .start a ipd datagram memory now again onWireEstimate slots := rfl

/-- Five bytes in blocks of four, from a big-endian machine to a little-endian one. -/
def fiveBytes : Download where
  client := ⟨.little, true⟩
  server := ⟨.big, false⟩
  network := slowNetwork
  parameter := { resetClient with blockSize := 4 }
  contents := [9, 8, 7, 6, 5]
  epoch := 1164098700
  side := idleServer
  inRange := { resetClient_inRange with blockSize := by decide }
  nonempty := by decide
  short := by decide
  wide := by decide
  first := rfl
  memory := rfl

def fiveBytesRun : List SystemAction :=
  let arrives : List UInt8 → Client.GetAction := fun d => .turn (.calm (.datagram d))
  let put : Nat → List Client.GetAction := fun n =>
    [.reserve, .store, .confirm, .peek, .read, .accept (.wrote n)]
  let client : List Client.GetAction :=
    arrives (datagramHeader 1 tsBlockOriginal ++ [9, 8, 7, 6]) :: put 4 ++
      .pop :: arrives (datagramHeader 2 tsBlockTerminate ++ [5, 8, 7, 6]) :: put 1 ++
        .pop :: .requestStop .ok :: put 1 ++ [.join]
  [.server .idle, .server .idle] ++ client.map .client

def fiveBytesEnd : Option System :=
  (fiveBytes.exchange 9).bind fun opened =>
    run (System.stepIn fiveBytes.agreement fiveBytes.parameter.inLoop)
      (fiveBytes.start opened.1 opened.2 0 fun _ => List.replicate 10 0) fiveBytesRun

end TsunamiUdp
