import TsunamiUdp.Client.RingProgress
import TsunamiUdp.Session.Healthy

/-! What each side can do next while nothing breaks: the server sends the next block, the
client receives it and puts it into the ring, and the disk thread writes it. -/
namespace TsunamiUdp
open Library Client Client.Ring

def Named (block type : Nat) (d : List UInt8) : Prop := ∃ rest, d = datagramHeader block type ++ rest

section Names
variable {block type : Nat} {d : List UInt8}

theorem Named.number_eq (h : Named block type d) (hb : block < 4294967296) : blockNumber d = block := by
  obtain ⟨rest, rfl⟩ := h
  exact blockNumber_header hb rest

theorem Named.type_eq (h : Named block type d) (ht : type < 65536) : blockType d = type := by
  obtain ⟨rest, rfl⟩ := h
  exact blockType_header ht rest

theorem Named.buffer {param : Client.Parameter} {old : List UInt8} (h : Named block type d) :
    Named block type (buffer param old (.datagram d)) := by
  obtain ⟨rest, rfl⟩ := h
  unfold Client.buffer
  dsimp only
  rw [List.take_append, List.take_of_length_le (by simp),
    List.append_assoc]
  exact ⟨_, rfl⟩

theorem named_outgoing (param : Server.Parameter) (builder : Server.Builder) :
    Named block type (Server.outgoing param
      (Server.buildDatagram param.blockSize block type builder)) :=
  Server.outgoing_buildDatagram param block type builder

end Names

@[simp] theorem sendStats_calm {param : Client.Parameter} (recv : Recv) (xfer : Client.Transfer) :
    sendStats param (.calm recv) xfer = some (xfer, []) := by
  unfold sendStats
  exact if_neg fun h => absurd h.2 (Nat.not_lt_zero _)

@[simp] theorem statsKill_calm (recv : Recv) (xfer : Client.Transfer) :
    statsKill (.calm recv) xfer = false := by
  have hnotDue : ¬statsDue (.calm recv) xfer := fun h => absurd h.2 (Nat.not_lt_zero _)
  rw [statsKill, decide_eq_false hnotDue, Bool.false_and]

@[simp] theorem afterRingKill_calm (param : Client.Parameter) (recv : Recv) (xfer : Client.Transfer)
    (block type : Nat) : afterRingKill param (.calm recv) xfer block type = false := by
  unfold afterRingKill
  split
  · rfl
  · rw [statsKill_calm, Bool.and_false]

theorem turnKills_calm (param : Client.Parameter) (recv : Recv) (net : Net) :
    turnKills param (.calm recv) net = false := by
  unfold turnKills
  split
  · rfl
  · dsimp only
    split
    · exact afterRingKill_calm param recv _ _ _
    · exact statsKill_calm recv _

theorem alive_of_receiving {g : Get} (hphase : g.phase = .receiving) : g.alive = true := by
  rw [Get.alive, hphase]

theorem alive_of_inserting {g : Get} (hinserting : g.inserting = true) : g.alive = true := by
  unfold Get.inserting at hinserting
  unfold Get.alive
  split
  · rename_i hphase
    rw [hphase] at hinserting
    cases hinserting
  · rfl

theorem turn_enters (param : Client.Parameter) {g : Get} {block type : Nat} {d : List UInt8}
    (hnamed : Named block type d) (hb : block < 4294967296) (ht : type < 65536)
    (hphase : g.phase = .receiving) (hfull : ringFull g.threads.ring = false)
    (henters : enters false (countArrival type g.net.xfer) block type = true) :
    ∃ d', Named block type d' ∧ g.act param (.turn (.calm (.datagram d))) = some
      (if gotBlock g.net.xfer block = false then { g with
        net := ⟨countArrival type g.net.xfer, d'⟩
        phase := .storing (.calm (.datagram d)) }
      else Get.settle { g with net := ⟨countArrival type g.net.xfer, d'⟩ } false
        (afterRing param (.calm (.datagram d)) (countArrival type g.net.xfer) block type)) := by
  have hbuf : Named block type (Client.buffer param g.net.localDatagram (.datagram d)) := hnamed.buffer
  refine ⟨_, hbuf, ?_⟩
  have hnumber := hbuf.number_eq hb
  have htype := hbuf.type_eq ht
  have harrive : arrive param (.calm (.datagram d)) g.net = some
      (⟨countArrival type g.net.xfer, Client.buffer param g.net.localDatagram (.datagram d)⟩, []) := by
    rw [← htype]
    rfl
  have hcalm : (Env.calm (.datagram d)).ringFull = false := rfl
  dsimp only [Get.act, Get.turn]
  rw [hphase]
  dsimp only
  rw [hfull, harrive, if_pos hcalm]
  dsimp only
  rw [hnumber, htype, hcalm, if_pos henters, List.append_nil, afterRingKill_calm]
  rfl

theorem turn_new (param : Client.Parameter) {g : Get} {block type : Nat} {d : List UInt8}
    (hnamed : Named block type d) (hb : block < 4294967296) (ht : type < 65536)
    (hphase : g.phase = .receiving) (hfull : ringFull g.threads.ring = false)
    (hnew : gotBlock g.net.xfer block = false) :
    ∃ d', Named block type d' ∧ g.act param (.turn (.calm (.datagram d))) = some { g with
      net := ⟨countArrival type g.net.xfer, d'⟩
      phase := .storing (.calm (.datagram d)) } := by
  have hgot : gotBlock (countArrival type g.net.xfer) block = false := hnew
  have henters : enters false (countArrival type g.net.xfer) block type = true := by
    rw [enters, hgot]
    rfl
  obtain ⟨d', hbuf, hturn⟩ := turn_enters param hnamed hb ht hphase hfull henters
  rw [if_pos hnew] at hturn
  exact ⟨d', hbuf, hturn⟩

section Steps
variable {a : Agreement} {s : System}

theorem reaches_client (action : GetAction) {client : Get} (halive : s.client.alive = true)
    (hs : s.client.act a.client action = some client)
    (hreliable : Reliable a s.server.sent s.client action)
    (hhealthy : Healthy a s (.client action)) : Goes a s { s with client := client } := by
  apply ReachesAlong.step (a := .client action) hhealthy
  change (if Reliable a s.server.sent s.client action then _ else _) = _
  rw [if_pos hreliable, Get.act_step halive hs]
  rfl

theorem ringFull_of_room (hinv : Threads.Inv s.client.threads)
    (hidle : s.client.threads.producer = .idle)
    (hroom : s.client.threads.ring.countData < maxBlocksQueued) :
    ringFull s.client.threads.ring = false := by
  have hfree : s.client.threads.ring.countReserved = 0 := by
    have hp := hinv.producer
    rw [hidle] at hp
    exact hp
  have hspace := hinv.consistent.space_ready
  rw [hfree] at hspace
  unfold ringFull
  cases hready : s.client.threads.ring.spaceReady with
  | true => rfl
  | false =>
    have hfull := hspace.mp hready
    omega

theorem reaches_confirm (hinv : Threads.Inv s.client.threads)
    (hidle : s.client.threads.producer = .idle)
    (hroom : s.client.threads.ring.countData < maxBlocksQueued)
    (hinserting : s.client.inserting = true) :
    ∃ d held written threads, (s.client.withThreads held).offered = some d ∧
      Threads.Stored s.client.threads d threads ∧ written.step .confirm = some threads ∧
      Goes a s { s with client := s.client.withThreads written } := by
  obtain ⟨held, address, hreserve, hheld, hdone⟩ := Threads.insert_done hinv hidle hroom
  have hoffered : ∃ d, (s.client.withThreads held).offered = some d := by
    unfold Get.inserting at hinserting
    unfold Get.offered Get.withThreads
    dsimp only
    split at hinserting
    · exact ⟨_, rfl⟩
    · rw [hheld]
      exact ⟨_, rfl⟩
    · cases hinserting
  obtain ⟨d, hd⟩ := hoffered
  obtain ⟨written, threads, hwrite, hconfirm, hstored⟩ := hdone d
  refine ⟨d, held, written, threads, hd, hstored, hconfirm, ?_⟩
  have hfirst : s.client.act a.client .reserve = some (s.client.withThreads held) := by
    dsimp only [Get.act, Get.reserve]
    rw [if_pos hinserting, hreserve]
    rfl
  have hsecond : (s.client.withThreads held).act a.client .store =
      some (s.client.withThreads written) := by
    dsimp only [Get.act, Get.store]
    rw [hd, Option.bind_some]
    change (held.step (.write d)).map _ = _
    rw [hwrite]
    rfl
  have halive := alive_of_inserting hinserting
  exact (reaches_client _ halive hfirst trivial trivial).trans
    (reaches_client (s := { s with client := s.client.withThreads held }) _ halive hsecond trivial
      trivial)

structure Took (s : System) (d : List UInt8) (c : Controlled) (t : System) : Prop where
  server : t.server = s.server
  stored : Threads.Stored s.client.threads d t.client.threads
  xfer : t.client.net.xfer = c.xfer
  phase : t.client.phase = if c.finished then .finished else .receiving
  disk : t.client.disk = s.client.disk
  accepted : t.client.accepted = s.client.accepted
  file : t.client.file = s.client.file

theorem reaches_took {block type : Nat} {d : List UInt8} {c : Controlled}
    (hd : d ∈ s.server.sent) (hnamed : Named block type d) (hb : block < 4294967296)
    (ht : type < 65536) (hphase : s.client.phase = .receiving) (hinv : Threads.Inv s.client.threads)
    (hidle : s.client.threads.producer = .idle)
    (hroom : s.client.threads.ring.countData < maxBlocksQueued)
    (hnew : gotBlock s.client.net.xfer block = false)
    (hc : afterRing a.client (.calm (.datagram d))
      (markReceived (countArrival type s.client.net.xfer) block) block type = some c) :
    ∃ d' t, Named block type d' ∧ Took s d' c t ∧ Goes a s t := by
  obtain ⟨d', hbuf, hturn⟩ := turn_new a.client hnamed hb ht hphase
    (ringFull_of_room hinv hidle hroom) hnew
  obtain ⟨offered, held, written, threads, hoffered, hstored, hconfirm, hreach⟩ :=
    reaches_confirm (a := a) (s := { s with client := { s.client with
      net := ⟨countArrival type s.client.net.xfer, d'⟩
      phase := .storing (.calm (.datagram d)) } }) hinv hidle hroom rfl
  cases hoffered
  let after : Get := { s.client with
    net := ⟨c.xfer, d'⟩
    phase := if c.finished then .finished else .receiving
    threads := threads
    sent := s.client.sent ++ c.sent }
  refine ⟨d', ⟨s.server, after⟩, hbuf, ⟨rfl, hstored, rfl, rfl, rfl, rfl, rfl⟩, ?_⟩
  have hsettled : Get.act a.client (Get.withThreads { s.client with
      net := ⟨countArrival type s.client.net.xfer, d'⟩
      phase := .storing (.calm (.datagram d)) } written) .confirm = some after := by
    dsimp only [Get.act, Get.confirm, Get.withThreads]
    rw [hconfirm, Option.bind_some, hbuf.number_eq hb, hbuf.type_eq ht, hc]
    rfl
  exact (reaches_client _ (alive_of_receiving hphase) hturn ⟨hd, rfl, rfl, rfl⟩
      ⟨fun _ => rfl, turnKills_calm a.client _ _⟩).trans
    (hreach.trans (reaches_client (s := ⟨s.server, _⟩) _ rfl hsettled trivial trivial))

theorem reaches_peeked (halive : s.client.alive = true) (hinv : Threads.Inv s.client.threads)
    (hloop : s.client.disk = .looping)
    (hdata : 0 < s.client.threads.ring.countData)
    (hlooks : s.client.threads.consumer = .idle ∨
      ∃ signalled, s.client.threads.consumer = .peekWaiting signalled) :
    Goes a s { s with client := { s.client with
      threads := { s.client.threads with consumer := .peeked s.client.threads.ring.baseData } } } := by
  obtain ⟨hpeek, hwake⟩ := Threads.peek_done hinv hdata
  rcases hlooks with hidle | ⟨signalled, hwaits⟩
  · apply reaches_client .peek halive _ trivial trivial
    dsimp only [Get.act, Get.peek]
    rw [if_pos hloop, hpeek hidle]
    rfl
  · apply reaches_client .consumerWakes halive _ trivial trivial
    dsimp only [Get.act, Get.consumerWakes]
    rw [hwake signalled hwaits]
    rfl

theorem reaches_look (hinv : Threads.Inv s.client.threads) (hloop : s.client.disk = .looping)
    (halive : s.client.alive = true)
    {slot : Int} (hpeeked : s.client.threads.consumer = .peeked slot) :
    Goes a s { s with client := { s.client with
      threads := { s.client.threads with
        consumer := .read slot (s.client.threads.ring.datagrams slot) } } } := by
  apply reaches_client .read halive _ trivial trivial
  dsimp only [Get.act, Get.read]
  rw [if_pos hloop, Threads.read_done hinv hpeeked]
  rfl

theorem reaches_read {d : List UInt8} {rest : List (List UInt8)} (halive : s.client.alive = true)
    (hinv : Threads.Inv s.client.threads) (hloop : s.client.disk = .looping)
    (hqueue : s.client.threads.ring.queued = d :: rest) :
    ∃ slot, Threads.Inv { s.client.threads with consumer := .read slot d } ∧
      Goes a s { s with client := { s.client with
        threads := { s.client.threads with consumer := .read slot d } } } := by
  have hdata : 0 < s.client.threads.ring.countData := by
    have hlen := hinv.consistent.queued_length
    rw [hqueue, List.length_cons] at hlen
    omega
  have hhead : d = s.client.threads.ring.datagrams s.client.threads.ring.baseData := by
    have hcons := Threads.queued_cons hinv hdata
    rw [hqueue] at hcons
    exact (List.cons.inj hcons).1
  refine ⟨s.client.threads.ring.baseData, ⟨hinv.consistent, hinv.producer, ⟨hdata, rfl, hhead.symm⟩,
    hinv.history, hinv.alive⟩, ?_⟩
  have hpeeked : Threads.Inv { s.client.threads with
      consumer := .peeked s.client.threads.ring.baseData } :=
    ⟨hinv.consistent, hinv.producer, ⟨hdata, rfl⟩, hinv.history, hinv.alive⟩
  have hconsumer := hinv.consumer
  rw [hhead]
  cases hcase : s.client.threads.consumer with
  | idle =>
    exact (reaches_peeked halive hinv hloop hdata (Or.inl hcase)).trans
      (reaches_look (s := ⟨s.server, { s.client with threads := _ }⟩) hpeeked hloop halive rfl)
  | peekWaiting signalled =>
    exact (reaches_peeked halive hinv hloop hdata (Or.inr ⟨signalled, hcase⟩)).trans
      (reaches_look (s := ⟨s.server, { s.client with threads := _ }⟩) hpeeked hloop halive rfl)
  | peeked slot =>
    rw [hcase] at hconsumer
    obtain rfl := hconsumer.2
    exact reaches_look hinv hloop halive hcase
  | read slot e =>
    rw [hcase] at hconsumer
    obtain ⟨-, rfl, rfl⟩ := hconsumer
    rw [← hcase]
    exact ReachesAlong.refl _ _ s
  | popWaiting slot e signalled =>
    rw [hcase] at hconsumer
    exact hconsumer.elim

structure Wrote (a : Agreement) (s : System) (d : List UInt8) (t : System) : Prop where
  server : t.server = s.server
  popped : Threads.Popped s.client.threads d t.client.threads
  net : t.client.net = s.client.net
  phase : t.client.phase = s.client.phase
  disk : t.client.disk = s.client.disk
  accepted : t.client.accepted = s.client.accepted ++ [blockNumber d]
  file : t.client.file.length ≤ max s.client.file.length (a.server.blockSize * blockNumber d)

theorem reaches_wrote {d : List UInt8} {rest : List (List UInt8)} (halive : s.client.alive = true)
    (hinv : Threads.Inv s.client.threads)
    (hloop : s.client.disk = .looping) (hqueue : s.client.threads.ring.queued = d :: rest)
    (hnz : blockNumber d ≠ 0) :
    ∃ t, Wrote a s d t ∧ Goes a s t := by
  obtain ⟨slot, hlooks, hlook⟩ := reaches_read (a := a) halive hinv hloop hqueue
  obtain ⟨threads, hpop, hpopped⟩ := Threads.pop_done hlooks rfl
  let looks : Get := { s.client with threads := { s.client.threads with consumer := .read slot d } }
  have hpopped : Threads.Popped s.client.threads d threads := ⟨hpopped.inv, hpopped.producer,
    hpopped.consumer, hpopped.confirmed, hpopped.consumed, hpopped.countData⟩
  let result := DiskResult.wrote (writeSize a.client s.client.net.xfer (blockNumber d))
  let written := acceptBlock a.client s.client.net.xfer result (blockNumber d) (d.drop 6) s.client.file
  let after : Get := { s.client with
    threads := threads
    file := written.file
    disk := .looping
    accepted := s.client.accepted ++ [blockNumber d] }
  have hok : written.ok = true := decide_eq_true le_rfl
  have hfirst : looks.act a.client (.accept result) = some { looks with
      file := written.file
      disk := .accepted
      accepted := s.client.accepted ++ [blockNumber d] } := by
    dsimp only [Get.act, Get.accept, looks]
    rw [if_pos hloop, if_neg hnz, if_pos hok, if_pos hok]
  have hsecond : Get.act a.client { looks with
      file := written.file
      disk := .accepted
      accepted := s.client.accepted ++ [blockNumber d] } .pop = some after := by
    dsimp only [Get.act, Get.pop, looks]
    rw [if_pos rfl, hpop]
    dsimp only [Option.map, Get.afterRingCall]
    rw [hpopped.consumer]
  have hfile : written.file.length ≤
      max s.client.file.length (a.server.blockSize * blockNumber d) := by
    rw [← a.sameSize]
    exact acceptBlock_length (a.sameSize ▸ a.size_pos) result (Nat.pos_of_ne_zero hnz)
      (blockNumber_lt d)
  refine ⟨⟨s.server, after⟩, ⟨rfl, hpopped, rfl, rfl, hloop.symm, rfl, hfile⟩, hlook.trans ?_⟩
  exact (reaches_client (s := ⟨s.server, looks⟩) _ halive hfirst (fun _ => hok) trivial).trans
    (reaches_client _ halive hsecond trivial trivial)

theorem reaches_exited {d : List UInt8} {rest : List (List UInt8)} (halive : s.client.alive = true)
    (hinv : Threads.Inv s.client.threads)
    (hloop : s.client.disk = .looping) (hqueue : s.client.threads.ring.queued = d :: rest)
    (hzero : blockNumber d = 0) :
    ∃ slot, Threads.Inv { s.client.threads with consumer := .read slot d } ∧
      Goes a s { s with client := { s.client with
        threads := { s.client.threads with consumer := .read slot d }
        disk := .exited } } := by
  obtain ⟨slot, hlooks, hlook⟩ := reaches_read (a := a) halive hinv hloop hqueue
  refine ⟨slot, hlooks, hlook.trans ?_⟩
  have hexits : Get.act a.client { s.client with
      threads := { s.client.threads with consumer := .read slot d } } (.accept .seekFails) =
      some { s.client with
        threads := { s.client.threads with consumer := .read slot d }
        disk := .exited } := by
    dsimp only [Get.act, Get.accept]
    rw [if_pos hloop, if_pos hzero]
  exact reaches_client (s := ⟨s.server, _⟩) _ halive hexits (fun hnz => absurd hzero hnz) trivial

end Steps

def emptyPass (now : Int) : Server.Input := ⟨now, .nothing, .ok, now, now, now⟩

@[simp] theorem usecSince_self (now : Int) : Server.usecSince now now = 0 := by
  unfold Server.usecSince
  rw [Int.sub_self, Int.sub_self]
  rfl

variable {a : Agreement}

structure SentNext (a : Agreement) (loop t : Server.Loop) : Prop where
  flow : t.flow = .next
  ready : Server.Ready t.handler
  bytes : t.bytes = loop.bytes
  len : t.handler.retransmitlen = loop.handler.retransmitlen
  report : t.handler.lasthblostreport = loop.handler.lasthblostreport
  block : t.handler.xfer.block = Server.nextBlock a.server loop.handler.xfer
  sent : ∃ d, t.sent = loop.sent ++ [d] ∧ Named (Server.nextBlock a.server loop.handler.xfer)
    (if Server.nextBlock a.server loop.handler.xfer = a.server.blockCount then tsBlockTerminate
      else tsBlockOriginal) d

variable (a) in
theorem empty_step {loop : Server.Loop} (hflow : loop.flow = .next) (hready : Server.Ready loop.handler) :
    ∃ t, Server.Loop.step a.order a.server loop (emptyPass loop.handler.lasthblostreport) = some t ∧
      SentNext a loop t := by
  have htime : Server.usecSince (emptyPass loop.handler.lasthblostreport).checkTime
      (Server.transmitBlock a.server .ok { Server.pace loop.handler.lasthblostreport loop.handler with
        again := true }).handler.lasthblostreport < 500000 :=
    lt_of_eq_of_lt (usecSince_self loop.handler.lasthblostreport) (by decide)
  obtain ⟨count, slept, hquiet⟩ := Server.heartbeat_quiet a.order a.server htime
  have hturn := ((Server.handlerTurn_nothing a.order a.server
    (emptyPass loop.handler.lasthblostreport) hready rfl).trans (Server.finish_sent _)).trans hquiet
  refine ⟨_, Server.step_eq a.order a.server hflow trivial, ⟨?_, ?_, ?_, ?_, ?_, ?_, _, ?_,
    named_outgoing a.server loop.handler.xfer.builder⟩⟩
  · rw [hturn]
    rfl
  · exact Server.handlerTurn_ready a.order a.server hready trivial (by rw [hturn]; rfl)
  · exact List.append_nil _
  · rw [hturn]
    rfl
  · rw [hturn]
    rfl
  · rw [hturn]
    rfl
  · rw [hturn]
    rfl

theorem healthy_emptyPass (s : System) :
    Healthy a s (.server (emptyPass s.server.handler.lasthblostreport)) := by
  refine ⟨(by decide : Server.Read.nothing ≠ .closed), (by decide : Server.Read.nothing ≠ .failed), ?_⟩
  rintro ⟨-, ⟨-, -, htime⟩, -⟩
  have hnow := usecSince_self s.server.handler.lasthblostreport
  exact htime (lt_of_eq_of_lt hnow (by decide))

theorem reaches_server {s : System} {input : Server.Input} {server : Server.Loop}
    (hserver : Server.Loop.step a.order a.server s.server input = some server)
    (hstream : server.bytes <+: (records s.client.sent).flatten)
    (hhealthy : Healthy a s (.server input)) : Goes a s { s with server := server } := by
  apply ReachesAlong.step hhealthy
  change (Server.Loop.step a.order a.server s.server input).bind _ = _
  rw [hserver, Option.bind_some]
  exact if_pos hstream

theorem reaches_next {s : System} (hflow : s.server.flow = .next)
    (hready : Server.Ready s.server.handler)
    (hstream : s.server.bytes <+: (records s.client.sent).flatten) :
    ∃ server, SentNext a s.server server ∧ Goes a s { s with server := server } := by
  obtain ⟨server, hstep, hsent⟩ := empty_step a hflow hready
  exact ⟨server, hsent, reaches_server hstep (hsent.bytes ▸ hstream) (healthy_emptyPass s)⟩

end TsunamiUdp
