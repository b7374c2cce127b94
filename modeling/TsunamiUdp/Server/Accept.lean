import Mathlib.Data.Rat.Floor
import TsunamiUdp.Server.Datagram

/-! How the file server acts on a request (`ttp_accept_retransmit`). -/
namespace TsunamiUdp.Server
open Library

structure Parameter where
  blockSize : Nat
  blockCount : Nat
  errorRate : Nat
  ipdTime : Nat
  slowerNum : Nat
  slowerDen : Nat
  fasterNum : Nat
  fasterDen : Nat
  hbTimeout : Nat

/-- `ttp_transfer_t`: the block sent last, the delay between packets in microseconds,
and what `build_datagram` works on. -/
structure Transfer where
  block : Nat
  ipdCurrent : Rat
  builder : Builder

/-- How a `sendto` call ends; a failure leaves its reason in `errno`. -/
inductive SendResult
  | ok
  | failed (again : Bool)
deriving DecidableEq

structure Accepted where
  ok : Bool
  xfer : Transfer
  datagram : Option (List UInt8)

/-- The new delay for a reported error rate, before it is brought into range. A division by zero is
one by a double in the code; what is said of the delay there is only that it is brought into range. -/
def adjustIpd (param : Parameter) (errorRate : Nat) (ipd : Rat) : Rat :=
  if errorRate > param.errorRate then
    let factor1 : Rat := param.slowerNum / param.slowerDen - 1
    let factor2 : Rat := (1 + errorRate - param.errorRate) / (100000 - param.errorRate)
    ipd * (1 + factor1 * factor2)
  else ipd * (param.fasterNum / param.fasterDen)

def outgoing (param : Parameter) (builder : Builder) : List UInt8 :=
  builder.datagram.take (6 + param.blockSize)

def ttpAcceptRetransmit (param : Parameter) (send : SendResult) (r : Retransmission)
    (xfer : Transfer) : Accepted :=
  if r.requestType = requestErrorRate then
    ⟨true, { xfer with
      ipdCurrent := max (min (adjustIpd param r.errorRate xfer.ipdCurrent) 10000) param.ipdTime },
      none⟩
  else if r.requestType = requestRestart then
    if r.block = 0 ∨ r.block > param.blockCount then ⟨false, xfer, none⟩
    else ⟨true, { xfer with block := r.block }, none⟩
  else if r.requestType = requestRetransmit then
    let builder := buildDatagram param.blockSize r.block tsBlockRetransmission xfer.builder
    ⟨send = .ok, { xfer with builder := builder }, some (outgoing param builder)⟩
  else ⟨false, xfer, none⟩

theorem outgoing_buildDatagram (param : Parameter) (block type : Nat) (builder : Builder) :
    ∃ rest, outgoing param (buildDatagram param.blockSize block type builder) =
      datagramHeader block type ++ rest := by
  unfold outgoing buildDatagram
  dsimp only
  rw [List.append_assoc, List.take_append, List.take_of_length_le (by simp)]
  exact ⟨_, rfl⟩

end TsunamiUdp.Server
