import TsunamiUdp.Session.Moves

/-! Whatever the client has asked for, the server can read it to the end and go on with the
blocks of the file. -/
namespace TsunamiUdp
open Library Client Client.Ring

/-- The server has read all that the client has written. -/
def CaughtUp (s : System) : Prop := s.server.bytes = (records s.client.sent).flatten

variable {a : Agreement} {s : System}

@[simp] theorem records_append (sent more : List Retransmission) :
    records (sent ++ more) = records sent ++ records more :=
  List.map_append

@[simp] theorem records_length (sent : List Retransmission) :
    (records sent).flatten.length = sizeofRetransmission * sent.length := by
  rw [flatten_length records_width, records, List.length_map]

theorem Alive.split (h : Alive a s) (hflow : s.server.flow = .next) :
    ∃ done rest part, s.client.sent = done ++ rest ∧ s.server.bytes = (records done).flatten ++ part ∧
      part <+: (records rest).flatten ∧ part.length < sizeofRetransmission ∧
      s.server.handler.retransmitlen = part.length := by
  obtain ⟨done, rest, part, hsplit, hbytes, hless, -, hpart⟩ := h.session.serving.cut.done
  have hready := h.session.serving.cut.ready hflow
  obtain ⟨sent, more, hsent, rfl, rfl⟩ := List.map_eq_append_iff.mp hsplit
  refine ⟨sent, more, part, hsent, hbytes, ?_, hless, ?_⟩
  · have hstream := h.stream
    rw [hbytes, hsent, records_append, List.flatten_append] at hstream
    exact (List.prefix_append_right_inj _).mp hstream
  · have hlen := Server.display_shown.length (hpart hflow)
    have hroom := hready.room
    rw [List.length_take, hready.memory] at hlen
    omega

theorem Alive.retransmitlen (h : Alive a s) (hflow : s.server.flow = .next)
    {done : List Retransmission} (hbytes : s.server.bytes = (records done).flatten) :
    s.server.handler.retransmitlen = 0 := by
  obtain ⟨before, rest, part, -, hread, -, hless, hlen⟩ := h.split hflow
  have hlength := congrArg List.length (hbytes.symm.trans hread)
  rw [List.length_append, records_length, records_length] at hlength
  unfold sizeofRetransmission at hlength hless
  omega

def requestPass (now : Int) (bytes : List UInt8) : Server.Input := ⟨now, .data bytes, .ok, now, now, now⟩

theorem reaches_record (h : Alive a s) (hstop : ∀ r ∈ s.client.sent, r.requestType ≠ requestStop)
    {done rest : List Retransmission} {r : Retransmission} {part tail : List UInt8}
    (hsent : s.client.sent = done ++ r :: rest) (hr : r.encode = part ++ tail)
    (hbytes : s.server.bytes = (records done).flatten ++ part)
    (hlen : s.server.handler.retransmitlen = part.length) (hless : part.length < sizeofRetransmission) :
    ∃ server, Server.Loop.step a.order a.server s.server
        (requestPass s.server.handler.lasthblostreport tail) = some server ∧
      server.bytes = (records (done ++ [r])).flatten ∧ Goes a s { s with server := server } := by
  have hflow := h.heard hstop
  have hready := h.session.serving.cut.ready hflow
  have hwidth : part.length + tail.length = sizeofRetransmission := by
    rw [← List.length_append, ← hr, r.encode_length]
  have hreadable : Server.Readable (.data tail) s.server.handler := by
    have hall : 1 ≤ tail.length ∧
        s.server.handler.retransmitlen + tail.length ≤ sizeofRetransmission := by omega
    exact hall
  have hwhole : (records done).flatten ++ part ++ tail = (records (done ++ [r])).flatten := by
    rw [records_append, List.flatten_append, List.append_assoc, ← hr]
    simp [records]
  have hstep := Server.step_eq a.order a.server hflow
    (show Server.Readable (requestPass s.server.handler.lasthblostreport tail).read _ from hreadable)
  refine ⟨_, hstep, ?_, reaches_server hstep ?_ ⟨?_, ?_, ?_⟩⟩
  · dsimp only [requestPass, Server.Read.bytes]
    rw [hbytes]
    exact hwhole
  · dsimp only [requestPass, Server.Read.bytes]
    have hnext : s.client.sent = done ++ [r] ++ rest := by simp [hsent]
    rw [hbytes, hwhole, hnext, records_append (done ++ [r]), List.flatten_append]
    exact List.prefix_append _ _
  · simp [requestPass]
  · simp [requestPass]
  · rintro ⟨hincomplete, -⟩
    rw [Server.buffered_length _ (by rw [hready.memory]; omega)] at hincomplete
    have htail : (requestPass s.server.handler.lasthblostreport tail).read.bytes.length =
      tail.length := rfl
    omega

theorem caughtUp_or_reads (h : Alive a s) (hstop : ∀ r ∈ s.client.sent, r.requestType ≠ requestStop) :
    CaughtUp s ∨ ∃ server, Goes a s { s with server := server } ∧
      s.server.bytes.length < server.bytes.length ∧
      server.bytes.length ≤ (records s.client.sent).flatten.length := by
  obtain ⟨done, rest, part, hsent, hbytes, hpart, hless, hlen⟩ := h.split (h.heard hstop)
  cases rest with
  | nil =>
    left
    rw [List.prefix_nil.mp hpart, List.append_nil] at hbytes
    rw [List.append_nil] at hsent
    rw [CaughtUp, hsent]
    exact hbytes
  | cons r rest =>
    right
    have hfirst : part <+: r.encode := by
      have hle : part.length ≤ r.encode.length := by
        rw [r.encode_length]
        omega
      exact List.prefix_of_prefix_length_le hpart (List.prefix_append _ _) hle
    obtain ⟨tail, htail⟩ := hfirst
    obtain ⟨server, -, hread, hgoes⟩ := reaches_record h hstop hsent htail.symm hbytes hlen hless
    refine ⟨server, hgoes, ?_, ?_⟩
    · rw [hread, hbytes, List.length_append, records_length, records_length, List.length_append,
        List.length_singleton]
      unfold sizeofRetransmission at hless ⊢
      omega
    · rw [hread, hsent, records_length, records_length]
      simp [Nat.mul_add]

theorem reaches_caughtUp (hwide : a.server.blockCount < 4294967295) (h : Alive a s)
    (hstop : ∀ r ∈ s.client.sent, r.requestType ≠ requestStop) :
    ∃ server, Goes a s { s with server := server } ∧ CaughtUp { s with server := server } := by
  have hreach : ∃ t, Goes a s t ∧ t.client = s.client ∧ CaughtUp t := by
    refine reachesAlong_of_rank (P := fun u => Alive a u ∧ u.client = s.client)
      (fun u => (records s.client.sent).flatten.length - u.server.bytes.length)
      (fun u ⟨halive, hclient⟩ => ?_) ⟨h, rfl⟩
    rcases caughtUp_or_reads halive (by rw [hclient]; exact hstop) with hcaught | ⟨server, hgoes, hmore, hbound⟩
    · exact ⟨u, .refl _ _ u, Or.inl ⟨hclient, hcaught⟩⟩
    · rw [hclient] at hbound
      exact ⟨_, hgoes, Or.inr ⟨⟨alive_goes hwide halive hgoes, hclient⟩, by dsimp only; omega⟩⟩
  obtain ⟨⟨server, client⟩, hgoes, rfl, hcaught⟩ := hreach
  exact ⟨server, hgoes, hcaught⟩

structure Served (a : Agreement) (r : Retransmission) (loop t : Server.Loop) : Prop where
  block : t.handler.xfer.block = (Server.ttpAcceptRetransmit a.server .ok r loop.handler.xfer).xfer.block
  sent : t.sent = loop.sent ++
    (Server.ttpAcceptRetransmit a.server .ok r loop.handler.xfer).datagram.toList

theorem reaches_served (h : Alive a s) (hstop : ∀ r ∈ s.client.sent, r.requestType ≠ requestStop)
    {done rest : List Retransmission} {r : Retransmission} (hsent : s.client.sent = done ++ r :: rest)
    (hbytes : s.server.bytes = (records done).flatten) :
    ∃ server, Goes a s { s with server := server } ∧
      server.bytes = (records (done ++ [r])).flatten ∧ Served a r s.server server := by
  have hflow := h.heard hstop
  have hready := h.session.serving.cut.ready hflow
  have hlen := h.retransmitlen hflow hbytes
  have hr : r ∈ s.client.sent := by
    rw [hsent]
    simp
  obtain ⟨server, hstep, hread, hgoes⟩ := reaches_record h hstop hsent (List.nil_append _).symm
    (by rw [hbytes, List.append_nil]) hlen (by decide)
  refine ⟨server, hgoes, hread, ?_⟩
  obtain ⟨-, hreadable, rfl⟩ := Server.step_some hstep
  have hbuffered : Server.buffered (requestPass s.server.handler.lasthblostreport r.encode)
      s.server.handler = r.encode := by
    rw [Server.buffered, hlen, List.take_zero]
    rfl
  have hdecode : Retransmission.decode r.encode = r :=
    Retransmission.decode_encode (h.session.sensible r hr).fits
  have hfull : (Server.buffered (requestPass s.server.handler.lasthblostreport r.encode)
      s.server.handler).length = sizeofRetransmission := by
    rw [hbuffered, r.encode_length]
  have hdelivered := Server.handlerTurn_delivered a.order a.server hready hfull rfl
    (by rw [hbuffered, hdecode]; exact hstop r hr)
  cases Server.handlerTurn_pass a.order a.server hready hreadable with
  | exited _ _ _ _ bytes =>
    have hempty : r.encode = [] := bytes
    have hwidth := r.encode_length
    rw [hempty] at hwidth
    cases hwidth
  | stopped _ stop =>
    rw [hbuffered, hdecode] at stop
    exact absurd stop (hstop r hr)
  | requested _ _ _ _ _ xfer datagram =>
    rw [hbuffered, hdecode] at xfer datagram
    constructor
    · dsimp only
      rw [xfer]
      rfl
    · dsimp only [Server.Turn.sent]
      rw [if_pos hdelivered, datagram]
      rfl
  | transmitted incomplete => omega

theorem Served.retransmitted {loop t : Server.Loop} {b : Nat}
    (h : Served a ⟨requestRetransmit, b, 0⟩ loop t) :
    ∃ d ∈ t.sent, Named b tsBlockRetransmission d := by
  refine ⟨_, ?_, named_outgoing a.server loop.handler.xfer.builder⟩
  rw [h.sent]
  exact List.mem_append_right _ (List.mem_singleton_self _)

theorem Served.restarted {loop t : Server.Loop} {b : Nat}
    (h : Served a ⟨requestRestart, b, 0⟩ loop t) (h1 : 1 ≤ b) (hle : b ≤ a.server.blockCount) :
    t.handler.xfer.block = b := by
  rw [h.block]
  unfold Server.ttpAcceptRetransmit
  dsimp only
  rw [if_neg (by decide), if_pos rfl, if_neg (by omega)]

theorem reaches_block (hwide : a.server.blockCount < 4294967295) (h : Alive a s)
    (hflow : s.server.flow = .next) {b : Nat} (hle : b ≤ a.server.blockCount)
    (hb : s.server.handler.xfer.block < b ∨ b = a.server.blockCount) :
    ∃ server d, Goes a s { s with server := server } ∧ server.bytes = s.server.bytes ∧
      d ∈ server.sent ∧
      Named b (if b = a.server.blockCount then tsBlockTerminate else tsBlockOriginal) d := by
  have hblock := h.session.serving.block
  generalize hn : b - s.server.handler.xfer.block = n
  induction n using Nat.strong_induction_on generalizing s with
  | _ n ih =>
    obtain ⟨server, hnext, hgoes⟩ := reaches_next (a := a) hflow
      (h.session.serving.cut.ready hflow) h.stream
    obtain ⟨d, hsent, hnamed⟩ := hnext.sent
    have hone : Server.nextBlock a.server s.server.handler.xfer =
        min (s.server.handler.xfer.block + 1) a.server.blockCount := by
      unfold Server.nextBlock
      rw [wrap32_of_lt (by omega)]
    by_cases hhere : Server.nextBlock a.server s.server.handler.xfer = b
    · rw [hhere] at hnamed
      exact ⟨server, d, hgoes, hnext.bytes, by rw [hsent]; simp, hnamed⟩
    · have hmoved := hnext.block
      obtain ⟨last, e, hgoes', hbytes, he, hnamed'⟩ := ih _ (by dsimp only; omega)
        (s := { s with server := server }) (alive_goes hwide h hgoes) hnext.flow
        (by dsimp only; omega) (by dsimp only; omega) rfl
      exact ⟨last, e, hgoes.trans hgoes', hbytes.trans hnext.bytes, he, hnamed'⟩

end TsunamiUdp
