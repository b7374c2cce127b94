import TsunamiUdp.Client.Get
import TsunamiUdp.Server.Handler

/-! One transfer of a file: the server's transmit loop, the client's two threads, the
control connection from one to the other, and a network in which every datagram that was
sent may arrive at any time, any number of times, or never. -/
namespace TsunamiUdp
open Library

/-- What both sides have agreed on when the transfer is open, and the server's file. -/
structure Agreement where
  order : Server.ByteOrder
  server : Server.Parameter
  client : Client.Parameter
  contents : List UInt8
  sameSize : client.blockSize = server.blockSize
  size_pos : 0 < server.blockSize
  size_le : server.blockSize ≤ 65530
  nonempty : 0 < contents.length
  count : server.blockCount = blocksOf contents.length server.blockSize
  narrow : server.blockCount < 4294967296
  lossless : client.lossless = true

structure System where
  server : Server.Loop
  client : Client.Get

inductive SystemAction
  | server (input : Server.Input)
  | client (action : Client.GetAction)

def records (sent : List Retransmission) : List (List UInt8) := sent.map Retransmission.encode

/-- The file has just been opened, in a server process that has built nothing yet. -/
def System.start (a : Agreement) (ipd : Rat) (datagram memory : List UInt8) (now : Int)
    (again : Bool) (onWireEstimate : Nat) (slots : Int → List UInt8) : System where
  server := .start (.start ⟨0, ipd, ⟨0, ⟨a.contents, 0⟩, datagram⟩⟩ memory now again)
  client := .start a.client
    (.start a.contents.length a.server.blockCount onWireEstimate) slots

def Delivers (sent : List (List UInt8)) : Client.Recv → Prop
  | .datagram bytes => bytes ∈ sent
  | .error => False

/-- The calls of the client do what they can be relied on to do: the socket shows what
the server has sent, the control connection takes what is written, and the disk works. -/
def Reliable (a : Agreement) (sent : List (List UInt8)) (client : Client.Get) :
    Client.GetAction → Prop
  | .turn env => Delivers sent env.recv ∧ env.terminateWrite = .ok ∧
      env.periodicWrite = .ok ∧ env.statsWrite = .ok
  | .requestStop write => write = .ok
  | .accept result =>
    match client.threads.consumer with
    | .read _ d => blockNumber d ≠ 0 →
        (Client.acceptBlock a.client client.net.xfer result (blockNumber d) (d.drop 6)
          client.file).ok = true
    | _ => True
  | _ => True

instance (sent : List (List UInt8)) (recv : Client.Recv) : Decidable (Delivers sent recv) := by
  unfold Delivers
  cases recv <;> infer_instance

instance (a : Agreement) (sent : List (List UInt8)) (client : Client.Get) :
    (action : Client.GetAction) → Decidable (Reliable a sent client action)
  | .turn _ => instDecidableAnd
  | .requestStop write => Client.instDecidableEqWriteResult write .ok
  | .accept result =>
    match hconsumer : client.threads.consumer with
    | .read _ d => decidable_of_iff (blockNumber d ≠ 0 →
        (Client.acceptBlock a.client client.net.xfer result (blockNumber d) (d.drop 6)
          client.file).ok = true) (by rw [Reliable, hconsumer])
    | .idle | .peekWaiting _ | .peeked _ | .popWaiting _ _ _ =>
      isTrue (by rw [Reliable, hconsumer]; trivial)
  | .reserve | .producerWakes | .store | .confirm | .join | .peek | .consumerWakes | .read | .pop =>
    instDecidableTrue

/-- The server can read what the client has written, in the same order. -/
def System.step (a : Agreement) (s : System) : SystemAction → Option System
  | .server input =>
    (Server.Loop.step a.order a.server s.server input).bind fun server =>
      if server.bytes <+: (records s.client.sent).flatten then some { s with server := server }
      else none
  | .client action =>
    if Reliable a s.server.sent s.client action then
      (s.client.step a.client action).map fun client => { s with client := client }
    else none

/-- The number of blocks that are counted as lost at the end of `command_get`. -/
def totalLost (xfer : Client.Transfer) : Nat :=
  ((List.range xfer.blockCount).filter fun k : Nat => Client.gotBlock xfer (k + 1) = false).length

theorem Reliable.accepts {a : Agreement} {sent : List (List UInt8)} {client : Client.Get}
    {result : Client.DiskResult} {slot : Int} {d : List UInt8}
    (h : Reliable a sent client (.accept result)) (hread : client.threads.consumer = .read slot d)
    (hnz : blockNumber d ≠ 0) :
    (Client.acceptBlock a.client client.net.xfer result (blockNumber d) (d.drop 6)
      client.file).ok = true := by
  unfold Reliable at h
  rw [hread] at h
  exact h hnz

section Steps
variable {a : Agreement} {s t : System}

theorem server_step {input : Server.Input} (hs : s.step a (.server input) = some t) :
    ∃ server, Server.Loop.step a.order a.server s.server input = some server ∧
      server.bytes <+: (records s.client.sent).flatten ∧ t = { s with server := server } := by
  obtain ⟨server, hserver, hs⟩ := Option.bind_eq_some_iff.mp hs
  split at hs
  · rename_i hprefix
    exact ⟨server, hserver, hprefix, (Option.some.inj hs).symm⟩
  · cases hs

theorem client_step {action : Client.GetAction} (hs : s.step a (.client action) = some t) :
    ∃ client, s.client.step a.client action = some client ∧
      Reliable a s.server.sent s.client action ∧ t = { s with client := client } := by
  change (if Reliable a s.server.sent s.client action then _ else _) = _ at hs
  split at hs
  · rename_i hreliable
    obtain ⟨client, hclient, rfl⟩ := Option.map_eq_some_iff.mp hs
    exact ⟨client, hclient, hreliable, rfl⟩
  · cases hs

end Steps

end TsunamiUdp
