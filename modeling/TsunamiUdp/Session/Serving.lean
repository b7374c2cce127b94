import TsunamiUdp.Client.Requests
import TsunamiUdp.Server.Framing
import TsunamiUdp.Session.System

/-! The server's side of a transfer: whatever requests come, every datagram it sends
carries the block it names. -/
namespace TsunamiUdp
open Library

variable {a : Agreement}

def Carries (a : Agreement) (datagram : List UInt8) : Prop :=
  ∃ block type rest, 1 ≤ block ∧ block ≤ a.server.blockCount ∧
    datagram = datagramHeader block type ++ blockAt a.server.blockSize a.contents block ++ rest

theorem Carries.number {d : List UInt8} (h : Carries a d) :
    1 ≤ blockNumber d ∧ blockNumber d ≤ a.server.blockCount := by
  obtain ⟨block, type, rest, h1, hle, rfl⟩ := h
  have hnarrow := a.narrow
  rw [List.append_assoc, blockNumber_header (by omega)]
  exact ⟨h1, hle⟩

structure Placed (a : Agreement) (builder : Server.Builder) : Prop where
  contents : builder.file.contents = a.contents
  last : builder.lastBlock ≤ a.server.blockCount
  position : builder.file.position =
    min (a.server.blockSize * builder.lastBlock) a.contents.length

theorem inFile {block : Nat} (h1 : 1 ≤ block) (hle : block ≤ a.server.blockCount) :
    Server.InFile a.server.blockSize a.contents block := by
  have hnarrow := a.narrow
  refine ⟨a.size_pos, h1, a.count ▸ hle, by omega, ?_⟩
  calc a.contents.length
      ≤ a.server.blockSize * a.server.blockCount := by
        rw [a.count]
        exact size_le_blocks a.size_pos
    _ ≤ 65530 * 4294967296 := Nat.mul_le_mul a.size_le (by omega)
    _ < 9223372036854775808 := by decide

theorem Placed.build {builder : Server.Builder} (h : Placed a builder)
    (hwide : a.server.blockCount < 4294967295) {block : Nat} (type : Nat) (h1 : 1 ≤ block)
    (hle : block ≤ a.server.blockCount) :
    Placed a (Server.buildDatagram a.server.blockSize block type builder) ∧
      Carries a (Server.outgoing a.server
        (Server.buildDatagram a.server.blockSize block type builder)) := by
  have hin : Server.InFile a.server.blockSize builder.file.contents block := by
    rw [h.contents]
    exact inFile h1 hle
  have hbuild := Server.buildDatagram_right type hin fun hnext => by
    have hlast := h.last
    rw [wrap32_of_lt (by omega)] at hnext
    have hfull : a.server.blockSize * builder.lastBlock < a.contents.length :=
      blocks_before_lt_size a.size_pos (by rw [← a.count]; omega)
    rw [h.position, hnext, blockStart_succ]
    omega
  rw [hbuild, h.contents]
  refine ⟨⟨rfl, hle, rfl⟩, block, type, ?_⟩
  rw [Server.outgoing, Server.blockDatagram_take]
  exact ⟨_, h1, hle, (List.append_assoc _ _ _).symm⟩

/-- The server has cut up the requests, knows where it is, and has sent only datagrams
that carry their blocks. -/
structure Serving (a : Agreement) (requests : List Retransmission) (s : Server.Loop) : Prop where
  cut : Server.Cut Server.Shown (records requests) s
  block : s.handler.xfer.block ≤ a.server.blockCount
  builder : Placed a s.handler.xfer.builder
  sent : ∀ d ∈ s.sent, Carries a d

theorem records_width {requests : List Retransmission} :
    ∀ r ∈ records requests, r.length = sizeofRetransmission := by
  intro r hr
  obtain ⟨q, -, rfl⟩ := List.mem_map.mp hr
  exact q.encode_length

theorem records_head {requests : List Retransmission} {blockCount : Nat}
    (h : ∀ r ∈ requests, Client.Sensible blockCount r) : ∀ r ∈ records requests, r.take 1 = [0] := by
  intro r hr
  obtain ⟨q, hq, rfl⟩ := List.mem_map.mp hr
  have hbyte := (h q hq).oneByte
  have hzero : q.requestType / 256 ^ 1 % 256 = 0 := by omega
  rw [Retransmission.encode, toBytes, hzero]
  rfl

theorem turn_sent_carries {turn : Server.Turn} (h : ∀ d, turn.datagram = some d → Carries a d) :
    ∀ d ∈ turn.sent, Carries a d := by
  intro d hd
  unfold Server.Turn.sent at hd
  split at hd
  · exact h d (Option.mem_toList.mp hd)
  · cases hd

theorem nextBlock_range (hwide : a.server.blockCount < 4294967295) {xfer : Server.Transfer}
    (h : xfer.block ≤ a.server.blockCount) :
    1 ≤ Server.nextBlock a.server xfer ∧ Server.nextBlock a.server xfer ≤ a.server.blockCount := by
  have hpos : 0 < a.server.blockCount := by
    by_contra hnone
    have hsize : a.contents.length ≤ a.server.blockSize * a.server.blockCount := by
      rw [a.count]
      exact size_le_blocks a.size_pos
    have hzero : a.server.blockCount = 0 := by omega
    rw [hzero] at hsize
    have hnonempty := a.nonempty
    omega
  unfold Server.nextBlock
  rw [wrap32_of_lt (by omega)]
  omega

theorem accepted_serves (hwide : a.server.blockCount < 4294967295) {send : Server.SendResult}
    {r : Retransmission} {xfer : Server.Transfer} (hblock : xfer.block ≤ a.server.blockCount)
    (hbuilder : Placed a xfer.builder)
    (hinFile : r.requestType = requestRetransmit → 1 ≤ r.block ∧ r.block ≤ a.server.blockCount) :
    let accepted := Server.ttpAcceptRetransmit a.server send r xfer
    accepted.xfer.block ≤ a.server.blockCount ∧ Placed a accepted.xfer.builder ∧
      ∀ d, accepted.datagram = some d → Carries a d := by
  unfold Server.ttpAcceptRetransmit
  dsimp only
  split
  · exact ⟨hblock, hbuilder, fun d hd => by cases hd⟩
  · split
    · split
      · exact ⟨hblock, hbuilder, fun d hd => by cases hd⟩
      · refine ⟨?_, hbuilder, fun d hd => by cases hd⟩
        dsimp only
        omega
    · split
      · rename_i htype
        obtain ⟨h1, hle⟩ := hinFile htype
        obtain ⟨hplaced, hcarries⟩ := hbuilder.build hwide tsBlockRetransmission h1 hle
        refine ⟨hblock, hplaced, fun d hd => ?_⟩
        cases hd
        exact hcarries
      · exact ⟨hblock, hbuilder, fun d hd => by cases hd⟩

theorem Serving.step (hwide : a.server.blockCount < 4294967295) {requests : List Retransmission}
    {s s' : Server.Loop} {input : Server.Input} (h : Serving a requests s)
    (hsensible : ∀ r ∈ requests, Client.Sensible a.server.blockCount r)
    (hs : Server.Loop.step a.order a.server s input = some s')
    (hstream : s'.bytes <+: (records requests).flatten) : Serving a requests s' := by
  have hcut := Server.shown_step records_width (records_head hsensible) h.cut hs hstream
  obtain ⟨hflow, hread, rfl⟩ := Server.step_some hs
  have hready := h.cut.ready hflow
  have hserves : (Server.handlerTurn a.order a.server input s.handler).handler.xfer.block ≤
        a.server.blockCount ∧
      Placed a (Server.handlerTurn a.order a.server input s.handler).handler.xfer.builder ∧
      ∀ d, (Server.handlerTurn a.order a.server input s.handler).datagram = some d →
        Carries a d := by
    cases Server.handlerTurn_pass a.order a.server hready hread with
    | exited _ _ _ datagram _ xfer =>
      rw [datagram, xfer]
      exact ⟨h.block, h.builder, fun d hd => by cases hd⟩
    | stopped _ _ _ _ _ datagram xfer =>
      rw [datagram, xfer]
      exact ⟨h.block, h.builder, fun d hd => by cases hd⟩
    | requested complete _ _ _ _ xfer datagram _ =>
      rw [datagram, xfer]
      refine accepted_serves hwide h.block h.builder fun htype => ?_
      rcases h.cut.decode records_width hflow hstream complete with hreport | ⟨_, hmem, hdecode⟩
      · rw [hreport] at htype
        cases htype
      · obtain ⟨q, hq, rfl⟩ := List.mem_map.mp hmem
        have hq := hsensible q hq
        rw [hdecode, Retransmission.decode_encode hq.fits] at htype ⊢
        exact hq.inFile htype
    | transmitted _ _ _ _ block builder datagram _ =>
      obtain ⟨h1, hle⟩ := nextBlock_range hwide h.block
      rw [block, builder, datagram]
      refine ⟨hle, ?_⟩
      obtain ⟨hplaced, hcarries⟩ := h.builder.build hwide
        (if Server.nextBlock a.server s.handler.xfer = a.server.blockCount then tsBlockTerminate
          else tsBlockOriginal) h1 hle
      refine ⟨hplaced, fun d hd => ?_⟩
      cases hd
      exact hcarries
  refine ⟨hcut, hserves.1, hserves.2.1, fun d hd => ?_⟩
  rcases List.mem_append.mp hd with hd | hd
  · exact h.sent d hd
  · exact turn_sent_carries hserves.2.2 d hd

theorem Serving.more {requests : List Retransmission} {s : Server.Loop} (h : Serving a requests s)
    (more : List Retransmission) : Serving a (requests ++ more) s := by
  refine ⟨?_, h.block, h.builder, h.sent⟩
  rw [records, List.map_append]
  exact h.cut.more _

end TsunamiUdp
