import TsunamiUdp.RtServer.Backup
import TsunamiUdp.Server.Handler

/-! The transmit loop of the realtime server (`client_handler`): with a local copy the recording is
finished whether or not the client is still there. -/
namespace TsunamiUdp.RtServer
open Library
open TsunamiUdp.Server (SendResult Read Flow ByteOrder usecSince towardZero convertInPlace afterSend
  adjustIpd)

structure LoopParameter extends Parameter where
  errorRate : Nat
  ipdTime : Nat
  slowerNum : Nat
  slowerDen : Nat
  fasterNum : Nat
  fasterDen : Nat
  hbTimeout : Nat

def LoopParameter.rates (param : LoopParameter) : TsunamiUdp.Server.Parameter where
  blockSize := param.blockSize
  blockCount := param.blockCount
  errorRate := param.errorRate
  ipdTime := param.ipdTime
  slowerNum := param.slowerNum
  slowerDen := param.slowerDen
  fasterNum := param.fasterNum
  fasterDen := param.fasterDen
  hbTimeout := param.hbTimeout

structure Input where
  now : Int
  read : Read
  send : SendResult
  checkTime : Int
  reportTime : Int
  deltaTime : Int

/-- The transfer and the local variables of the loop; `again` says that `errno` is `EAGAIN`. -/
structure Handler where
  server : Server
  ipdCurrent : Rat
  retransmission : List UInt8
  retransmitlen : Nat
  deadconnectionCounter : Nat
  lasthblostreport : Int
  lastfeedback : Int
  prevpacketT : Int
  ipdTime : Int
  ipdTimeMax : Int
  again : Bool

def Handler.start (server : Server) (ipd : Rat) (retransmission : List UInt8) (start : Int)
    (again : Bool) : Handler where
  server := server
  ipdCurrent := ipd
  retransmission := retransmission
  retransmitlen := 0
  deadconnectionCounter := 0
  lasthblostreport := start
  lastfeedback := start
  prevpacketT := start
  ipdTime := 0
  ipdTimeMax := 0
  again := again

def pace (now : Int) (h : Handler) : Handler :=
  let diff := towardZero (h.ipdCurrent + (h.prevpacketT - now : Int))
  let ipdTime := if diff > 0 ∨ h.ipdTime > 0 then h.ipdTime + diff else h.ipdTime
  { h with
    prevpacketT := now
    ipdTime := ipdTime
    ipdTimeMax := if ipdTime > h.ipdTimeMax then ipdTime else h.ipdTimeMax }

/-- A read that fails ends the process only if there is no local copy. -/
def readRequest (fileout : Bool) (read : Read) (h : Handler) : Option Handler :=
  match read with
  | .data bytes => some
      { h with
        retransmission := h.retransmission.take h.retransmitlen ++ bytes ++
          h.retransmission.drop (h.retransmitlen + bytes.length)
        retransmitlen := h.retransmitlen + bytes.length }
  | .nothing => some { h with again := true }
  | .closed => if h.again ∨ fileout then some h else none
  | .failed => if fileout then some { h with again := false } else none

structure Turn where
  flow : Flow
  handler : Handler
  acted : Option Retransmission
  original : Option Nat
  datagram : Option (List UInt8)
  delivered : Bool
  slept : List Int

def Turn.sent (turn : Turn) : List (List UInt8) :=
  if turn.delivered then turn.datagram.toList else []

def outgoing (param : LoopParameter) (server : Server) : List UInt8 :=
  server.builder.datagram.take (6 + param.blockSize)

def acceptRetransmit (param : LoopParameter) (vsib : Nat → UInt8) (send : SendResult)
    (r : Retransmission) (h : Handler) : Handler :=
  { h with
    server := ttpAcceptRetransmit param.toParameter vsib r h.server
    ipdCurrent :=
      if r.requestType = requestErrorRate then
        max (min (adjustIpd param.rates r.errorRate h.ipdCurrent) 10000) param.ipdTime
      else h.ipdCurrent
    again := if r.requestType = requestRetransmit then afterSend send h.again else h.again }

def handleRequest (order : ByteOrder) (param : LoopParameter) (vsib : Nat → UInt8) (input : Input)
    (h : Handler) : Turn :=
  let r := Retransmission.decode h.retransmission
  let h := { h with
    lastfeedback := input.now
    lasthblostreport := input.now
    deadconnectionCounter := 0 }
  if r.requestType = requestStop then ⟨.stop, h, some r, none, none, false, []⟩
  else
    let h := { acceptRetransmit param vsib input.send r h with
      retransmission := convertInPlace order h.retransmission
      retransmitlen := 0 }
    let datagram := if r.requestType = requestRetransmit then some (outgoing param h.server) else none
    ⟨.next, h, some r, none, datagram, input.send = .ok, []⟩

def transmitBlock (param : LoopParameter) (vsib : Nat → UInt8) (send : SendResult) (h : Handler) :
    Turn :=
  let server := transmit param.toParameter vsib h.server
  let h := { h with server := server, again := afterSend send h.again }
  ⟨.next, h, none, some server.block, some (outgoing param server), send = .ok, []⟩

def sleep (param : LoopParameter) (turn : Turn) : Turn :=
  { turn with slept :=
      (if turn.original = some param.blockCount then [10 * turn.handler.ipdTimeMax] else []) ++
      (if turn.handler.ipdTime > 0 then [turn.handler.ipdTime] else []) }

/-- The report on the lost client. With a local copy the transfer is given up only behind the last
block, and up to there the time of the last feedback is moved. -/
def reportLost (param : LoopParameter) (input : Input) (turn : Turn) : Turn :=
  let turn := { turn with handler := { turn.handler with lasthblostreport := input.reportTime } }
  if usecSince input.deltaTime turn.handler.lastfeedback > param.hbTimeout * 1000000 then
    if param.fileout = true ∧ turn.original = some param.blockCount then { turn with flow := .timeout }
    else if param.fileout = false then { turn with flow := .timeout }
    else sleep param { turn with handler := { turn.handler with lastfeedback := input.now } }
  else sleep param turn

def heartbeat (param : LoopParameter) (input : Input) (turn : Turn) : Turn :=
  let h := turn.handler
  if h.deadconnectionCounter > 2048 then
    let turn := { turn with handler := { h with deadconnectionCounter := 0 } }
    if usecSince input.checkTime h.lasthblostreport < 500000 then turn
    else reportLost param input turn
  else sleep param { turn with handler :=
    { h with deadconnectionCounter := wrap32 (h.deadconnectionCounter + 1) } }

def finish (param : LoopParameter) (input : Input) (turn : Turn) : Turn :=
  if turn.flow = .stop then turn
  else if turn.original.isSome ∧ turn.delivered = false then turn
  else heartbeat param input turn

def handlerTurn (order : ByteOrder) (param : LoopParameter) (vsib : Nat → UInt8) (input : Input)
    (h : Handler) : Turn :=
  let h := pace input.now h
  match readRequest param.fileout input.read h with
  | none => ⟨.exit, h, none, none, none, false, []⟩
  | some h =>
    finish param input
      (if h.retransmitlen = sizeofRetransmission then handleRequest order param vsib input h
      else if h.retransmitlen < sizeofRetransmission then transmitBlock param vsib input.send h
      else ⟨.next, { h with retransmitlen := 0 }, none, none, none, false, []⟩)

def Readable (read : Read) (h : Handler) : Prop :=
  read ≠ .data [] ∧ h.retransmitlen + read.bytes.length ≤ sizeofRetransmission

instance (read : Read) (h : Handler) : Decidable (Readable read h) :=
  inferInstanceAs (Decidable (_ ∧ _))

structure Loop where
  handler : Handler
  flow : Flow
  silence : Nat
  bytes : List UInt8
  sent : List (List UInt8)

def Loop.start (h : Handler) : Loop := ⟨h, .next, 0, [], []⟩

def Loop.step (order : ByteOrder) (param : LoopParameter) (vsib : Nat → UInt8) (s : Loop)
    (input : Input) : Option Loop :=
  if s.flow = .next ∧ Readable input.read s.handler then
    let turn := handlerTurn order param vsib input s.handler
    some ⟨turn.handler, turn.flow, if turn.acted.isSome then 0 else s.silence + 1,
      s.bytes ++ input.read.bytes, s.sent ++ turn.sent⟩
  else none

/-- The client asks again only for blocks that were sent, and never for block 1. -/
def Asks (order : ByteOrder) (param : LoopParameter) (vsib : Nat → UInt8) (s : Loop) (input : Input) :
    Prop :=
  ∀ r ∈ (handlerTurn order param vsib input s.handler).acted,
    AlreadySent s.handler.server r ∧ Sound param.toParameter s.handler.server (.request r)

instance (order : ByteOrder) (param : LoopParameter) (vsib : Nat → UInt8) (s : Loop) (input : Input) :
    Decidable (Asks order param vsib s input) := by
  unfold Asks
  cases (handlerTurn order param vsib input s.handler).acted with
  | none => exact isTrue fun r hr => absurd hr (Option.not_mem_none r)
  | some r => exact decidable_of_iff _ (by simp [Option.mem_def] : (AlreadySent s.handler.server r ∧
      Sound param.toParameter s.handler.server (.request r)) ↔ _)

section Passes
variable {order : ByteOrder} {param : LoopParameter} {vsib : Nat → UInt8} {input : Input}

def buffered (input : Input) (h : Handler) : List UInt8 :=
  h.retransmission.take h.retransmitlen ++ input.read.bytes

structure Ready (h : Handler) : Prop where
  memory : h.retransmission.length = sizeofRetransmission
  room : h.retransmitlen < sizeofRetransmission

/-- A pass with a local copy acts on a complete request, or keeps what it has of one and builds the
next block; it gives up only behind the last block. -/
inductive Pass (param : LoopParameter) (vsib : Nat → UInt8) (input : Input) (h : Handler) (turn : Turn) :
    Prop
  | stopped (complete : (buffered input h).length = sizeofRetransmission)
      (acted : turn.acted = some (.decode (buffered input h))) (flow : turn.flow = .stop)
      (server : turn.handler.server = h.server) (datagram : turn.datagram = none)
  | requested (complete : (buffered input h).length = sizeofRetransmission)
      (acted : turn.acted = some (.decode (buffered input h))) (flow : turn.flow = .next)
      (server : turn.handler.server =
        ttpAcceptRetransmit param.toParameter vsib (.decode (buffered input h)) h.server)
      (datagram : turn.datagram =
        if (Retransmission.decode (buffered input h)).requestType = requestRetransmit
          then some (outgoing param turn.handler.server) else none)
      (ready : Ready turn.handler) (empty : turn.handler.retransmitlen = 0)
  | transmitted (acted : turn.acted = none)
      (flow : turn.flow = .next ∨
        turn.flow = .timeout ∧ nextBlock param.toParameter h.server = param.blockCount)
      (server : turn.handler.server = transmit param.toParameter vsib h.server)
      (datagram : turn.datagram = some (outgoing param turn.handler.server))
      (ready : Ready turn.handler)
      (kept : turn.handler.retransmission.take turn.handler.retransmitlen = buffered input h)

structure Same (turn turn' : Turn) : Prop where
  acted : turn'.acted = turn.acted
  datagram : turn'.datagram = turn.datagram
  server : turn'.handler.server = turn.handler.server
  memory : turn'.handler.retransmission = turn.handler.retransmission
  len : turn'.handler.retransmitlen = turn.handler.retransmitlen

theorem Same.refl (turn : Turn) : Same turn turn := ⟨rfl, rfl, rfl, rfl, rfl⟩

variable (input) in
theorem reportLost_spec (hout : param.fileout = true) (turn : Turn) (hflow : turn.flow = .next) :
    Same turn (reportLost param input turn) ∧ ((reportLost param input turn).flow = .next ∨
      (reportLost param input turn).flow = .timeout ∧ turn.original = some param.blockCount) := by
  unfold reportLost
  dsimp only
  split
  · split
    · rename_i hlast
      exact ⟨⟨rfl, rfl, rfl, rfl, rfl⟩, .inr ⟨rfl, hlast.2⟩⟩
    · rw [if_neg (by simp [hout])]
      exact ⟨⟨rfl, rfl, rfl, rfl, rfl⟩, .inl hflow⟩
  · exact ⟨⟨rfl, rfl, rfl, rfl, rfl⟩, .inl hflow⟩

variable (input) in
theorem finish_spec (hout : param.fileout = true) (turn : Turn) (hflow : turn.flow = .next) :
    Same turn (finish param input turn) ∧ ((finish param input turn).flow = .next ∨
      (finish param input turn).flow = .timeout ∧ turn.original = some param.blockCount) := by
  unfold finish
  rw [if_neg (by rw [hflow]; exact nofun)]
  split
  · exact ⟨.refl turn, .inl hflow⟩
  · unfold heartbeat
    dsimp only
    split
    · split
      · exact ⟨⟨rfl, rfl, rfl, rfl, rfl⟩, .inl hflow⟩
      · obtain ⟨hsame, hflows⟩ := reportLost_spec input hout { turn with
          handler := { turn.handler with deadconnectionCounter := 0 } } hflow
        exact ⟨⟨hsame.acted, hsame.datagram, hsame.server, hsame.memory, hsame.len⟩, hflows⟩
    · exact ⟨⟨rfl, rfl, rfl, rfl, rfl⟩, .inl hflow⟩

theorem readable_le {read : Read} {h : Handler} (hread : Readable read h) :
    h.retransmitlen + read.bytes.length ≤ sizeofRetransmission :=
  hread.2

theorem readRequest_spec (hout : param.fileout = true) {read : Read} {h : Handler}
    (hready : Ready h) (hread : Readable read h) :
    ∃ h', readRequest param.fileout read h = some h' ∧ h'.server = h.server ∧
      h'.retransmission.length = sizeofRetransmission ∧
      h'.retransmitlen = h.retransmitlen + read.bytes.length ∧
      h'.retransmission.take h'.retransmitlen = h.retransmission.take h.retransmitlen ++ read.bytes := by
  have hmem := hready.memory
  have hroom := hready.room
  have hsame : h.retransmission.take h.retransmitlen =
      h.retransmission.take h.retransmitlen ++ ([] : List UInt8) := (List.append_nil _).symm
  rw [hout]
  cases read with
  | data bytes =>
    have hle : h.retransmitlen + bytes.length ≤ sizeofRetransmission := readable_le hread
    refine ⟨_, rfl, rfl, ?_, rfl, ?_⟩
    · simp only [List.length_append, List.length_take, List.length_drop]
      omega
    · apply List.take_left'
      simp only [List.length_append, List.length_take]
      omega
  | nothing => exact ⟨_, rfl, rfl, hmem, rfl, hsame⟩
  | closed => exact ⟨h, if_pos (Or.inr rfl), rfl, hmem, rfl, hsame⟩
  | failed => exact ⟨_, rfl, rfl, hmem, rfl, hsame⟩

theorem requested_pass (hout : param.fileout = true) {h : Handler} {turn : Turn}
    (hcomplete : (buffered input h).length = sizeofRetransmission) (hflow : turn.flow = .next)
    (hacted : turn.acted = some (.decode (buffered input h))) (horiginal : turn.original = none)
    (hserver : turn.handler.server =
      ttpAcceptRetransmit param.toParameter vsib (.decode (buffered input h)) h.server)
    (hdatagram : turn.datagram =
      if (Retransmission.decode (buffered input h)).requestType = requestRetransmit
        then some (outgoing param turn.handler.server) else none)
    (hmemory : turn.handler.retransmission.length = sizeofRetransmission)
    (hlen : turn.handler.retransmitlen = 0) : Pass param vsib input h (finish param input turn) := by
  obtain ⟨hsame, hflows⟩ := finish_spec input hout turn hflow
  refine .requested hcomplete (hsame.acted.trans hacted) ?_ (hsame.server.trans hserver) ?_ ⟨?_, ?_⟩ ?_
  · apply hflows.resolve_right
    rintro ⟨-, hlast⟩
    rw [horiginal] at hlast
    cases hlast
  · rw [hsame.server]
    exact hsame.datagram.trans hdatagram
  · rw [hsame.memory]
    exact hmemory
  · rw [hsame.len, hlen]
    exact Nat.succ_pos _
  · exact hsame.len.trans hlen

variable (order vsib input) in
theorem handleRequest_pass (hout : param.fileout = true) {h h' : Handler} (hserver : h'.server = h.server)
    (hmemory : h'.retransmission.length = sizeofRetransmission)
    (hfull : h'.retransmission = buffered input h) :
    Pass param vsib input h (finish param input (handleRequest order param vsib input h')) := by
  have hcomplete : (buffered input h).length = sizeofRetransmission := by rw [← hfull, hmemory]
  unfold handleRequest
  dsimp only
  rw [hfull]
  split
  · rw [finish, if_pos rfl]
    exact .stopped hcomplete rfl rfl hserver rfl
  · apply requested_pass hout hcomplete rfl rfl rfl ?_ rfl ?_ rfl
    · rw [← hserver]
      rfl
    · exact Server.convertInPlace_length hcomplete

variable (vsib input) in
theorem transmitBlock_pass (hout : param.fileout = true) {h h' : Handler} (hserver : h'.server = h.server)
    (hready : Ready h') (hkept : h'.retransmission.take h'.retransmitlen = buffered input h) :
    Pass param vsib input h (finish param input (transmitBlock param vsib input.send h')) := by
  obtain ⟨hsame, hflow⟩ := finish_spec input hout (transmitBlock param vsib input.send h') rfl
  refine .transmitted hsame.acted (hflow.imp_right fun h => ⟨h.1, ?_⟩) ?_ ?_ ⟨?_, ?_⟩ ?_
  · rw [← hserver]
    exact Option.some.inj h.2
  · rw [hsame.server, ← hserver]
    rfl
  · rw [hsame.server]
    exact hsame.datagram
  · rw [hsame.memory]
    exact hready.memory
  · rw [hsame.len]
    exact hready.room
  · rw [hsame.memory, hsame.len]
    exact hkept

variable (order vsib) in
theorem handlerTurn_pass (hout : param.fileout = true) {h : Handler} (hready : Ready h)
    (hread : Readable input.read h) :
    Pass param vsib input h (handlerTurn order param vsib input h) := by
  have hpaced : Ready (pace input.now h) := ⟨hready.memory, hready.room⟩
  obtain ⟨h', hh', hserver, hmemory, hlen, hkept⟩ := readRequest_spec hout hpaced
    (show Readable input.read (pace input.now h) from hread)
  have hle : h'.retransmitlen ≤ sizeofRetransmission := hlen ▸ readable_le hread
  unfold handlerTurn
  dsimp only
  rw [hh']
  dsimp only
  by_cases hfull : h'.retransmitlen = sizeofRetransmission
  · rw [if_pos hfull]
    refine handleRequest_pass order vsib input hout hserver hmemory ?_
    rw [hfull, List.take_of_length_le hmemory.le] at hkept
    exact hkept
  · have hless : h'.retransmitlen < sizeofRetransmission := by omega
    rw [if_neg hfull, if_pos hless]
    exact transmitBlock_pass vsib input hout hserver ⟨hmemory, hless⟩ hkept

end Passes

/-- More than one block, and few enough for the number of the next one to fit in 32 bits. -/
structure Recordable (param : Parameter) : Prop where
  several : blocksOf param.fileSize param.blockSize ≠ 1
  fits : blocksOf param.fileSize param.blockSize < 4294967295

theorem Recordable.blockCount {param : Parameter} (h : Recordable param) :
    param.blockCount = blocksOf param.fileSize param.blockSize := by
  have hfits := h.fits
  exact Nat.mod_eq_of_lt (by omega)

structure Recorded (param : Parameter) (vsib : Nat → UInt8) (server : Server) (silence : Nat) : Prop where
  faithful : Faithful param vsib server
  steady : Steady param server
  begun : 1 ≤ server.sent → 1 ≤ server.block
  kept : silence ≤ server.block ∨ server.sent = param.blockCount

section Recording
variable {param : Parameter} {vsib : Nat → UInt8} {server : Server} {silence : Nat}

theorem Recorded.complete (h : Recorded param vsib server silence) (hrec : Recordable param)
    (hall : server.sent = param.blockCount) : server.builder.file = recording param vsib := by
  have hcover : param.fileSize ≤ param.blockSize * param.blockCount := by
    rw [hrec.blockCount]
    exact size_le_blocks param.size_pos
  rw [h.faithful, hall, flatMap_blockAt, List.take_of_length_le]
  simpa using hcover

theorem nextBlock_eq (hrec : Recordable param) (hsteady : Steady param server) :
    nextBlock param server = min (server.block + 1) param.blockCount := by
  have hblock := hsteady.block_le
  have hsent := hsteady.sent_le
  have hfits := hrec.fits
  have hcount := hrec.blockCount
  rw [nextBlock, wrap32_of_lt (by omega)]

/-- A recording of one block is written once more in every pass. -/
theorem transmit_one_block (hout : param.fileout = true) (hone : param.blockCount = 1)
    (hblock : server.block ≤ 1) :
    server.builder.file.length < (RtServer.transmit param vsib server).builder.file.length := by
  have hnext : nextBlock param server = 1 := by
    rw [nextBlock, hone, wrap32_of_lt (by omega)]
    omega
  have hpos := payload_written_pos param vsib 1 server.builder
  dsimp only [RtServer.transmit]
  rw [hnext, (buildDatagram_stores (stores_one hout)).1, List.length_append]
  omega

theorem Recorded.sound (h : Recorded param vsib server silence) (hrec : Recordable param) :
    Sound param server .transmit := by
  have hcount := hrec.blockCount
  have hseveral := hrec.several
  have hbegun := h.begun
  refine ⟨fun hone => ?_, fun _ _ => Or.inl hcount.symm⟩
  rw [nextBlock_eq hrec h.steady] at hone
  omega

theorem Recorded.transmit (h : Recorded param vsib server silence) (hrec : Recordable param)
    (hout : param.fileout = true) :
    Recorded param vsib (transmit param vsib server) (silence + 1) := by
  have hsound := h.sound hrec
  have hnext := nextBlock_eq hrec h.steady
  have hblock := h.steady.block_le
  have hsent := h.steady.sent_le
  refine ⟨(transmit_iff hout h.steady h.faithful).mpr hsound, h.steady.transmit hout hsound, ?_, ?_⟩
  · intro hpos
    dsimp only [RtServer.transmit] at hpos ⊢
    have hbegun := h.begun
    omega
  · dsimp only [RtServer.transmit]
    rcases h.kept with hkept | hall
    · omega
    · right
      omega

theorem Recorded.request (h : Recorded param vsib server silence) (hout : param.fileout = true)
    {r : Retransmission} (hasked : AlreadySent server r) (hsound : Sound param server (.request r)) :
    Recorded param vsib (ttpAcceptRetransmit param vsib r server) 0 := by
  refine ⟨(request_iff hout h.steady h.faithful hasked).mpr hsound, h.steady.request hasked hsound, ?_,
    Or.inl (Nat.zero_le _)⟩
  unfold ttpAcceptRetransmit
  split
  · exact h.begun
  · split
    · split
      · exact h.begun
      · rename_i hlegal
        intro _
        dsimp only
        omega
    · split
      · exact h.begun
      · exact h.begun

theorem recorded_start (param : Parameter) (vsib : Nat → UInt8) (lastWritten : Nat)
    (datagram : List UInt8) : Recorded param vsib (.start lastWritten datagram) 0 :=
  ⟨rfl, steady_start param lastWritten datagram, fun hpos => hpos, Or.inl le_rfl⟩

end Recording

/-- What holds of the loop with a local copy: it never exits, and times out only when all blocks
were built. -/
structure Outlives (param : LoopParameter) (vsib : Nat → UInt8) (s : Loop) : Prop where
  recorded : Recorded param.toParameter vsib s.handler.server s.silence
  ready : s.flow = .next → Ready s.handler
  goesOn : s.flow ≠ .exit
  finished : s.flow = .timeout → s.handler.server.sent = param.blockCount

section Runs
variable {order : ByteOrder} {param : LoopParameter} {vsib : Nat → UInt8} {s s' : Loop} {input : Input}

theorem outlives_start (param : LoopParameter) (vsib : Nat → UInt8) (lastWritten : Nat)
    (datagram : List UInt8) {memory : List UInt8} (hmemory : memory.length = sizeofRetransmission)
    (ipd : Rat) (start : Int) (again : Bool) :
    Outlives param vsib (.start (.start (.start lastWritten datagram) ipd memory start again)) where
  recorded := recorded_start param.toParameter vsib lastWritten datagram
  ready := fun _ => ⟨hmemory, Nat.succ_pos _⟩
  goesOn := fun hexit => by cases hexit
  finished := fun htimeout => by cases htimeout

theorem Outlives.step (h : Outlives param vsib s) (hrec : Recordable param.toParameter)
    (hout : param.fileout = true) (hasks : Asks order param vsib s input)
    (hs : s.step order param vsib input = some s') : Outlives param vsib s' := by
  unfold Loop.step at hs
  split at hs
  · rename_i hready
    cases hs
    cases handlerTurn_pass order vsib hout (h.ready hready.1) hready.2 with
    | stopped complete acted flow server datagram =>
      have hkept : Recorded param.toParameter vsib s.handler.server 0 :=
        ⟨h.recorded.faithful, h.recorded.steady, h.recorded.begun, Or.inl (Nat.zero_le _)⟩
      refine ⟨?_, ?_, ?_, ?_⟩
      · dsimp only
        rw [acted, server]
        exact hkept
      · intro hnext
        exact absurd (flow.symm.trans hnext) nofun
      · intro hexit
        exact absurd (flow.symm.trans hexit) nofun
      · intro htimeout
        exact absurd (flow.symm.trans htimeout) nofun
    | requested complete acted flow server datagram ready empty =>
      obtain ⟨hasked, hsound⟩ := hasks _ acted
      refine ⟨?_, fun _ => ready, ?_, ?_⟩
      · dsimp only
        rw [acted, server]
        exact h.recorded.request hout hasked hsound
      · intro hexit
        exact absurd (flow.symm.trans hexit) nofun
      · intro htimeout
        exact absurd (flow.symm.trans htimeout) nofun
    | transmitted acted flow server datagram ready kept =>
      have hnew := h.recorded.transmit hrec hout
      refine ⟨?_, fun _ => ready, ?_, ?_⟩
      · dsimp only
        rw [acted, server]
        exact hnew
      · intro hexit
        rcases flow with flow | flow
        · exact absurd (flow.symm.trans hexit) nofun
        · exact absurd (flow.1.symm.trans hexit) nofun
      · intro htimeout
        rcases flow with flow | ⟨-, hlast⟩
        · exact absurd (flow.symm.trans htimeout) nofun
        · dsimp only
          rw [server]
          dsimp only [transmit]
          have hsent := h.recorded.steady.sent_le
          omega
  · cases hs

end Runs

/-- With a local copy the transfer ends only when the client says so or when it has been given up
behind the last block. As long as the client asks only for blocks it was sent, and not for block 1,
the copy is always a front of the recording, whatever becomes of the connection; and it is the whole
recording once the transfer was given up, or the client was silent for as many passes as there
are blocks. -/
theorem recording_outlives_client (order : ByteOrder) (param : LoopParameter) (vsib : Nat → UInt8)
    (lastWritten : Nat) (datagram memory : List UInt8) (hmemory : memory.length = sizeofRetransmission)
    (ipd : Rat) (start : Int) (again : Bool) (inputs : List Input) (s : Loop)
    (hout : param.fileout = true)
    (hrec : Recordable param.toParameter)
    (hrun : run (Loop.step order param vsib)
      (.start (.start (.start lastWritten datagram) ipd memory start again)) inputs = some s)
    (hasks : Along (Loop.step order param vsib) (Asks order param vsib)
      (.start (.start (.start lastWritten datagram) ipd memory start again)) inputs) :
    s.flow ≠ .exit ∧
      s.handler.server.builder.file =
        (recording param.toParameter vsib).take (param.blockSize * s.handler.server.sent) ∧
      (s.flow = .timeout ∨ param.blockCount ≤ s.silence →
        s.handler.server.builder.file = recording param.toParameter vsib) := by
  have hall : Outlives param vsib s :=
    run_invariant_along (fun s input s' h hok hs => h.step hrec hout hok hs)
      (outlives_start param vsib lastWritten datagram hmemory ipd start again) hasks hrun
  refine ⟨hall.goesOn, ?_, ?_⟩
  · rw [hall.recorded.faithful, flatMap_blockAt]
  · rintro (htimeout | hsilent)
    · exact hall.recorded.complete hrec (hall.finished htimeout)
    · apply hall.recorded.complete hrec
      have hblock := hall.recorded.steady.block_le
      have hsent := hall.recorded.steady.sent_le
      rcases hall.recorded.kept with hkept | hsame
      · omega
      · exact hsame

/-- Three blocks, and a client that is gone after the first one. -/
theorem five_bytes_outlive_client :
    let param : LoopParameter := ⟨⟨2, 5, true, by decide, by decide⟩, 0, 10, 3, 2, 1, 2, 15⟩
    let vsib : Nat → UInt8 := fun k => UInt8.ofNat (k + 10)
    let pass : Read → Input := fun read => ⟨5, read, .ok, 5, 5, 5⟩
    ∃ s, run (Loop.step .little param vsib)
        (.start (.start (.start 7 []) 30 (List.replicate 12 0) 0 false))
        [pass .nothing, pass .closed, pass .failed] = some s ∧
      s.handler.server.builder.file = recording param.toParameter vsib := by
  intro param vsib pass
  refine ⟨_, rfl, (recording_outlives_client .little param vsib 7 [] (List.replicate 12 0) rfl 30 0 false
    [pass .nothing, pass .closed, pass .failed] _ rfl ⟨by decide, by decide⟩ rfl (by decide)).2.2
    (Or.inr (by decide))⟩

end TsunamiUdp.RtServer
