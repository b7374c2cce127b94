import TsunamiUdp.RtServer.Transmit

/-! What the realtime server makes of the requests of its client, however they are cut up on the way,
and what it sends. -/
namespace TsunamiUdp.RtServer
open Library
open TsunamiUdp.Server (ByteOrder)

/-- The datagram carries a block of the recording up to block `top`, and says that it is the last one
only if it is. -/
def Genuine (param : Parameter) (vsib : Nat → UInt8) (top : Nat) (datagram : List UInt8) : Prop :=
  ∃ block type rest, 1 ≤ block ∧ block ≤ top ∧ block ≤ param.blockCount ∧ type < 65536 ∧
    (type = tsBlockTerminate → block = param.blockCount) ∧
    datagram = datagramHeader block type ++ blockAt param.blockSize (recording param vsib) block ++ rest

theorem Genuine.mono {param : Parameter} {vsib : Nat → UInt8} {top top' : Nat} {d : List UInt8}
    (h : Genuine param vsib top d) (hle : top ≤ top') : Genuine param vsib top' d := by
  obtain ⟨block, type, rest, h1, htop, hrest⟩ := h
  exact ⟨block, type, rest, h1, htop.trans hle, hrest⟩

section Datagrams
variable {param : LoopParameter} {vsib : Nat → UInt8} {server : Server} {block type : Nat}

theorem buildDatagram_datagram (param : Parameter) (vsib : Nat → UInt8) (block type : Nat)
    (builder : Builder) :
    (buildDatagram param vsib block type builder).datagram.take (6 + param.blockSize) =
      datagramHeader block type ++ payload param vsib block builder := by
  have hlen : (datagramHeader block type ++ payload param vsib block builder).length =
      6 + param.blockSize := by
    rw [List.length_append, datagramHeader_length, payload, readVsibBlock_length]
  exact List.take_left' hlen

theorem payload_right (h : Steady param.toParameter server) (h1 : 1 ≤ block) (hle : block ≤ param.blockCount)
    (hfirst : block = 1 → server.sent = 0) :
    payload param.toParameter vsib block server.builder =
      readVsibBlock vsib (blockStart param.blockSize block) param.blockSize := by
  have hnarrow := blockCount_narrow param.toParameter
  by_cases hone : block = 1
  · rw [hone]
    exact payload_one (h.opened (hfirst hone) (by omega))
  · exact payload_later server.builder (by omega) (by omega) h.lastBlock

theorem genuine_build (hrec : Recordable param.toParameter) (h : Steady param.toParameter server)
    (h1 : 1 ≤ block) (hle : block ≤ param.blockCount) (hfirst : block = 1 → server.sent = 0)
    {top : Nat} (htop : block ≤ top) (htype : type < 65536)
    (hlast : type = tsBlockTerminate → block = param.blockCount) :
    Genuine param.toParameter vsib top
      ((buildDatagram param.toParameter vsib block type server.builder).datagram.take
        (6 + param.blockSize)) := by
  have hwritten : (readVsibBlock vsib (blockStart param.blockSize block) param.blockSize).take
      (writeSize param.toParameter block) =
        blockAt param.blockSize (recording param.toParameter vsib) block :=
    (written_eq_blockAt_iff h1 hle).mpr fun _ => Or.inl hrec.blockCount.symm
  refine ⟨block, type, (readVsibBlock vsib (blockStart param.blockSize block) param.blockSize).drop
    (writeSize param.toParameter block), h1, htop, hle, htype, hlast, ?_⟩
  rw [buildDatagram_datagram, payload_right h h1 hle hfirst, ← hwritten, List.append_assoc,
    List.take_append_drop]

theorem genuine_transmit (hrec : Recordable param.toParameter) (hsome : param.blockCount ≠ 0)
    {silence : Nat} (h : Recorded param.toParameter vsib server silence) :
    Genuine param.toParameter vsib (transmit param.toParameter vsib server).sent
      (outgoing param (transmit param.toParameter vsib server)) := by
  have hnext := nextBlock_eq hrec h.steady
  apply genuine_build hrec h.steady
  · omega
  · omega
  · exact (h.sound hrec).1
  · exact Nat.le_max_right _ _
  · split <;> decide
  · intro hlast
    by_contra hnot
    rw [if_neg hnot] at hlast
    cases hlast

theorem genuine_request (hrec : Recordable param.toParameter) (h : Steady param.toParameter server)
    {r : Retransmission} (htype : r.requestType = requestRetransmit) (hasked : AlreadySent server r)
    (hsound : Sound param.toParameter server (.request r)) :
    Genuine param.toParameter vsib server.sent
      (outgoing param (ttpAcceptRetransmit param.toParameter vsib r server)) := by
  obtain ⟨h1, hle⟩ := hasked (Or.inl htype)
  have hne := hsound htype
  have hbuild : ttpAcceptRetransmit param.toParameter vsib r server = { server with
      builder := buildDatagram param.toParameter vsib r.block tsBlockRetransmission server.builder } := by
    unfold ttpAcceptRetransmit
    rw [htype]
    rfl
  rw [hbuild]
  apply genuine_build hrec h h1 (hle.trans h.sent_le) (fun hone => absurd hone hne) hle (by decide)
  intro hlast
  cases hlast

@[simp] theorem sent_request (r : Retransmission) :
    (ttpAcceptRetransmit param.toParameter vsib r server).sent = server.sent := by
  unfold ttpAcceptRetransmit
  split
  · rfl
  · split
    · split <;> rfl
    · split <;> rfl

end Datagrams

/-- The loop knows where in the stream of requests it is, and has sent nothing but blocks of the
recording. -/
structure Serving (param : LoopParameter) (vsib : Nat → UInt8) (requests : List Retransmission)
    (s : Loop) : Prop where
  outlives : Outlives param vsib s
  cut : ∃ done rest part, requests = done ++ rest ∧
    s.bytes = (done.map Retransmission.encode).flatten ++ part ∧
    (s.flow = .next → part = s.handler.retransmission.take s.handler.retransmitlen)
  sent : ∀ d ∈ s.sent, Genuine param.toParameter vsib s.handler.server.sent d

section Steps
variable {order : ByteOrder} {param : LoopParameter} {vsib : Nat → UInt8} {requests : List Retransmission}
  {s s' : Loop} {input : Input}

theorem serving_start (param : LoopParameter) (vsib : Nat → UInt8) (lastWritten : Nat)
    (datagram : List UInt8) {memory : List UInt8} (hmemory : memory.length = sizeofRetransmission)
    (ipd : Rat) (start : Int) (again : Bool) :
    Serving param vsib [] (.start (.start (.start lastWritten datagram) ipd memory start again)) where
  outlives := outlives_start param vsib lastWritten datagram hmemory ipd start again
  cut := ⟨[], [], [], rfl, rfl, fun _ => rfl⟩
  sent := fun d hd => by cases hd

theorem Serving.more (h : Serving param vsib requests s) (more : List Retransmission) :
    Serving param vsib (requests ++ more) s := by
  obtain ⟨done, rest, part, hsplit, hrest⟩ := h.cut
  exact ⟨h.outlives, ⟨done, rest ++ more, part, by rw [hsplit, List.append_assoc], hrest⟩, h.sent⟩

theorem next_request {done rest : List Retransmission} {record : List UInt8}
    (hfits : ∀ r ∈ requests, r.Fits) (hsplit : requests = done ++ rest)
    (hfull : record.length = sizeofRetransmission)
    (hstream : (done.map Retransmission.encode).flatten ++ record <+:
      (requests.map Retransmission.encode).flatten) :
    ∃ r rest', rest = r :: rest' ∧ record = r.encode ∧ Retransmission.decode record = r := by
  rw [hsplit, List.map_append] at hstream
  obtain ⟨records, hrecords⟩ := next_record (by decide) (fun q hq => by
    obtain ⟨r, -, rfl⟩ := List.mem_map.mp hq
    exact r.encode_length) hfull hstream
  cases rest with
  | nil => cases hrecords
  | cons r rest' =>
    have hrecord : record = r.encode := ((List.cons.inj hrecords).1).symm
    refine ⟨r, rest', rfl, hrecord, ?_⟩
    rw [hrecord, Retransmission.decode_encode]
    apply hfits
    rw [hsplit]
    exact List.mem_append_right _ List.mem_cons_self

theorem step_some (hs : s.step order param vsib input = some s') :
    s.flow = .next ∧ Readable input.read s.handler ∧
      s' = ⟨(handlerTurn order param vsib input s.handler).handler,
        (handlerTurn order param vsib input s.handler).flow,
        if (handlerTurn order param vsib input s.handler).acted.isSome then 0 else s.silence + 1,
        s.bytes ++ input.read.bytes, s.sent ++ (handlerTurn order param vsib input s.handler).sent⟩ := by
  obtain ⟨⟨hflow, hread⟩, heq⟩ := Option.ite_none_right_eq_some.mp hs
  exact ⟨hflow, hread, (Option.some.inj heq).symm⟩

theorem genuine_sent {turn : Turn} {top : Nat} (hsent : ∀ d ∈ s.sent, Genuine param.toParameter vsib top d)
    (hnew : ∀ d, turn.datagram = some d → Genuine param.toParameter vsib top d) :
    ∀ d ∈ s.sent ++ turn.sent, Genuine param.toParameter vsib top d := by
  intro d hd
  rcases List.mem_append.mp hd with hd | hd
  · exact hsent d hd
  · unfold Turn.sent at hd
    split at hd
    · exact hnew d (Option.mem_toList.mp hd)
    · cases hd

theorem cut_behind {done rest rest' : List Retransmission} {r : Retransmission} {bytes record : List UInt8}
    (hsplit : requests = done ++ rest) (hrest : rest = r :: rest')
    (hbytes : bytes = (done.map Retransmission.encode).flatten ++ record) (hrecord : record = r.encode) :
    requests = (done ++ [r]) ++ rest' ∧
      bytes = ((done ++ [r]).map Retransmission.encode).flatten ++ [] := by
  refine ⟨?_, ?_⟩
  · rw [hsplit, hrest, List.append_assoc]
    rfl
  · rw [hbytes, hrecord, List.map_append, List.flatten_append, List.append_nil]
    simp

theorem Serving.step (h : Serving param vsib requests s) (hrec : Recordable param.toParameter)
    (hsome : param.blockCount ≠ 0) (hout : param.fileout = true) (hfits : ∀ r ∈ requests, r.Fits)
    (hasked : ∀ r ∈ requests, AlreadySent s.handler.server r ∧
      Sound param.toParameter s.handler.server (.request r))
    (hs : s.step order param vsib input = some s')
    (hstream : s'.bytes <+: (requests.map Retransmission.encode).flatten) :
    Serving param vsib requests s' ∧ s.handler.server.sent ≤ s'.handler.server.sent := by
  obtain ⟨hflow, hread, rfl⟩ := step_some hs
  obtain ⟨done, rest, part, hsplit, hbytes, hpart⟩ := h.cut
  have hall : s.bytes ++ input.read.bytes =
      (done.map Retransmission.encode).flatten ++ buffered input s.handler := by
    rw [hbytes, hpart hflow, List.append_assoc, buffered]
  have hrecorded := h.outlives.recorded
  cases handlerTurn_pass order vsib hout (h.outlives.ready hflow) hread with
  | stopped complete acted flow server datagram =>
    obtain ⟨r, rest', hrest, hrecord, hdecode⟩ := next_request hfits hsplit complete (hall ▸ hstream)
    obtain ⟨hsplit', hbytes'⟩ := cut_behind hsplit hrest hall hrecord
    have hmem : r ∈ requests := by
      rw [hsplit']
      simp
    have houtlives := h.outlives.step hrec hout (fun q hq => by
      rw [acted, hdecode, Option.mem_some_iff] at hq
      exact hq ▸ hasked r hmem) hs
    refine ⟨⟨houtlives, ⟨done ++ [r], rest', [], hsplit', hbytes', fun hnext => ?_⟩, ?_⟩, ?_⟩
    · exact absurd (flow.symm.trans hnext) nofun
    · dsimp only
      rw [server]
      exact genuine_sent h.sent fun d hd => by rw [datagram] at hd; cases hd
    · dsimp only
      rw [server]
  | requested complete acted flow server datagram ready empty =>
    obtain ⟨r, rest', hrest, hrecord, hdecode⟩ := next_request hfits hsplit complete (hall ▸ hstream)
    obtain ⟨hsplit', hbytes'⟩ := cut_behind hsplit hrest hall hrecord
    have hmem : r ∈ requests := by
      rw [hsplit']
      simp
    have houtlives := h.outlives.step hrec hout (fun q hq => by
      rw [acted, hdecode, Option.mem_some_iff] at hq
      exact hq ▸ hasked r hmem) hs
    rw [hdecode] at server datagram
    refine ⟨⟨houtlives, ⟨done ++ [r], rest', [], hsplit', hbytes', fun _ => ?_⟩, ?_⟩, ?_⟩
    · dsimp only
      rw [empty]
      rfl
    · dsimp only
      rw [server, sent_request]
      refine genuine_sent h.sent fun d hd => ?_
      rw [datagram, server] at hd
      obtain ⟨htype, hd⟩ := Option.ite_none_right_eq_some.mp hd
      obtain rfl := Option.some.inj hd
      obtain ⟨hasked, hsound⟩ := hasked r hmem
      exact genuine_request hrec hrecorded.steady htype hasked hsound
    · dsimp only
      rw [server, sent_request]
  | transmitted acted flow server datagram ready kept =>
    have houtlives := h.outlives.step hrec hout (fun q hq => by rw [acted] at hq; cases hq) hs
    have hgrows : s.handler.server.sent ≤ (transmit param.toParameter vsib s.handler.server).sent :=
      Nat.le_max_left _ _
    refine ⟨⟨houtlives, ⟨done, rest, buffered input s.handler, hsplit, hall, fun _ => kept.symm⟩, ?_⟩, ?_⟩
    · dsimp only
      rw [server]
      refine genuine_sent (fun d hd => (h.sent d hd).mono hgrows) fun d hd => ?_
      rw [datagram, server] at hd
      obtain rfl := Option.some.inj hd
      exact genuine_transmit hrec hsome hrecorded
    · dsimp only
      rw [server]
      exact hgrows

end Steps

end TsunamiUdp.RtServer
