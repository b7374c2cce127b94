import TsunamiUdp.Server.Accept

/-! One pass of the file server's transmit loop in `client_handler`. -/
namespace TsunamiUdp.Server
open Library

inductive Read
  | data (bytes : List UInt8)
  | nothing
  | closed
  | failed
deriving DecidableEq

inductive ByteOrder
  | little
  | big
deriving DecidableEq

def ByteOrder.bytes (order : ByteOrder) (n : Nat) : List UInt8 :=
  match order with
  | .little => (toBytes 4 n).reverse
  | .big => toBytes 4 n

/-- What the calls of one pass return; the last three are the clock in the heartbeat branch. -/
structure Input where
  now : Int
  read : Read
  send : SendResult
  checkTime : Int
  reportTime : Int
  deltaTime : Int

/-- The local variables of the loop. `retransmission` is the memory of the structure that
requests are read into; `again` says that `errno` is `EAGAIN`. -/
structure Handler where
  xfer : Transfer
  retransmission : List UInt8
  retransmitlen : Nat
  deadconnectionCounter : Nat
  lasthblostreport : Int
  lastfeedback : Int
  prevpacketT : Int
  ipdTime : Int
  ipdTimeMax : Int
  again : Bool

def Handler.start (xfer : Transfer) (retransmission : List UInt8) (start : Int) (again : Bool) :
    Handler where
  xfer := { xfer with block := 0 }
  retransmission := retransmission
  retransmitlen := 0
  deadconnectionCounter := 0
  lasthblostreport := start
  lastfeedback := start
  prevpacketT := start
  ipdTime := 0
  ipdTimeMax := 0
  again := again

def towardZero (q : Rat) : Int := q.num.tdiv q.den

/-- `get_usec_since`, which counts whole seconds up and is off when the clock went back. -/
def usecSince (now old : Int) : Int :=
  (max 0 (now / 1000000 - old / 1000000) * 1000000 + (now % 1000000 - old % 1000000))
    % 18446744073709551616

def pace (now : Int) (h : Handler) : Handler :=
  let diff := towardZero (h.xfer.ipdCurrent + (h.prevpacketT - now : Int))
  let ipdTime := if diff > 0 ∨ h.ipdTime > 0 then h.ipdTime + diff else h.ipdTime
  { h with
    prevpacketT := now
    ipdTime := ipdTime
    ipdTimeMax := if ipdTime > h.ipdTimeMax then ipdTime else h.ipdTimeMax }

/-- The read behind the bytes that are already there; `none` ends the process. -/
def readRequest (read : Read) (h : Handler) : Option Handler :=
  match read with
  | .data bytes => some
      { h with
        retransmission := h.retransmission.take h.retransmitlen ++ bytes ++
          h.retransmission.drop (h.retransmitlen + bytes.length)
        retransmitlen := h.retransmitlen + bytes.length }
  | .nothing => some { h with again := true }
  | .closed => if h.again then some h else none
  | .failed => none

/-- The structure after `ttp_accept_retransmit` has converted two of its fields. -/
def convertInPlace (order : ByteOrder) (memory : List UInt8) : List UInt8 :=
  let r := Retransmission.decode memory
  memory.take 4 ++ order.bytes r.block ++ order.bytes r.errorRate

def afterSend (send : SendResult) (again : Bool) : Bool :=
  match send with
  | .ok => again
  | .failed reason => reason

inductive Flow
  | next
  | stop
  | timeout
  | exit
deriving DecidableEq

/-- What a pass did: the client's request it acted on, whether it made a report of its
own, the block of the transmit loop and the datagram it handed to `sendto`, whether that
was sent, and how long it slept. -/
structure Turn where
  flow : Flow
  handler : Handler
  acted : Option Retransmission
  reported : Bool
  original : Option Nat
  datagram : Option (List UInt8)
  delivered : Bool
  slept : List Int

def Turn.sent (turn : Turn) : List (List UInt8) :=
  if turn.delivered then turn.datagram.toList else []

def handleRequest (order : ByteOrder) (param : Parameter) (now : Int) (send : SendResult)
    (h : Handler) : Turn :=
  let r := Retransmission.decode h.retransmission
  let h := { h with lastfeedback := now, lasthblostreport := now, deadconnectionCounter := 0 }
  if r.requestType = requestStop then ⟨.stop, h, some r, false, none, none, false, []⟩
  else
    let accepted := ttpAcceptRetransmit param send r h.xfer
    let h := { h with
      xfer := accepted.xfer
      retransmission := convertInPlace order h.retransmission
      retransmitlen := 0
      again := if accepted.datagram.isSome then afterSend send h.again else h.again }
    ⟨.next, h, some r, false, none, accepted.datagram, send = .ok, []⟩

def nextBlock (param : Parameter) (xfer : Transfer) : Nat :=
  min (wrap32 (xfer.block + 1)) param.blockCount

def buildNext (param : Parameter) (xfer : Transfer) : Builder :=
  let block := nextBlock param xfer
  let type := if block = param.blockCount then tsBlockTerminate else tsBlockOriginal
  buildDatagram param.blockSize block type xfer.builder

def transmitBlock (param : Parameter) (send : SendResult) (h : Handler) : Turn :=
  let block := nextBlock param h.xfer
  let builder := buildNext param h.xfer
  let h := { h with
    xfer := { h.xfer with block := block, builder := builder }
    again := afterSend send h.again }
  ⟨.next, h, none, false, some block, some (outgoing param builder), send = .ok, []⟩

def fakeReport (memory : List UInt8) : List UInt8 :=
  toBytes 2 requestErrorRate ++ (memory.drop 2).take 2 ++ toBytes 4 0 ++ toBytes 4 100000

def sleep (param : Parameter) (turn : Turn) : Turn :=
  { turn with slept :=
      (if turn.original = some param.blockCount then [10 * turn.handler.ipdTimeMax] else []) ++
      (if turn.handler.ipdTime > 0 then [turn.handler.ipdTime] else []) }

/-- The report the monitor makes in the client's place, and the timeout. -/
def reportLost (order : ByteOrder) (param : Parameter) (input : Input) (turn : Turn) : Turn :=
  let h := turn.handler
  let memory := fakeReport h.retransmission
  let accepted := ttpAcceptRetransmit param input.send (Retransmission.decode memory) h.xfer
  let late := usecSince input.deltaTime h.lastfeedback > param.hbTimeout * 1000000
  let turn := { turn with
    flow := if late then .timeout else .next
    handler := { h with
      lasthblostreport := input.reportTime
      xfer := accepted.xfer
      retransmission := convertInPlace order memory }
    reported := true }
  if late then turn else sleep param turn

def heartbeat (order : ByteOrder) (param : Parameter) (input : Input) (turn : Turn) : Turn :=
  let h := turn.handler
  if h.deadconnectionCounter > 2048 then
    let turn := { turn with handler := { h with deadconnectionCounter := 0 } }
    if usecSince input.checkTime h.lasthblostreport < 500000 then turn
    else reportLost order param input turn
  else sleep param { turn with handler :=
    { h with deadconnectionCounter := wrap32 (h.deadconnectionCounter + 1) } }

/-- A stop request leaves the loop, and a failed `sendto` goes back to its head at once. -/
def finish (order : ByteOrder) (param : Parameter) (input : Input) (turn : Turn) : Turn :=
  if turn.flow = .stop then turn
  else if turn.original.isSome ∧ turn.delivered = false then turn
  else heartbeat order param input turn

def handlerTurn (order : ByteOrder) (param : Parameter) (input : Input) (h : Handler) : Turn :=
  let h := pace input.now h
  match readRequest input.read h with
  | none => ⟨.exit, h, none, false, none, none, false, []⟩
  | some h =>
    finish order param input
      (if h.retransmitlen = sizeofRetransmission then
        handleRequest order param input.now input.send h
      else if h.retransmitlen < sizeofRetransmission then transmitBlock param input.send h
      else ⟨.next, { h with retransmitlen := 0 }, none, false, none, none, false, []⟩)

def Read.bytes : Read → List UInt8
  | .data bytes => bytes
  | _ => []

/-- `read` returns at least one byte and no more than there is room for. -/
def Readable (read : Read) (h : Handler) : Prop :=
  match read with
  | .data bytes => 1 ≤ bytes.length ∧ h.retransmitlen + bytes.length ≤ sizeofRetransmission
  | _ => True

instance (read : Read) (h : Handler) : Decidable (Readable read h) := by
  unfold Readable
  cases read <;> infer_instance

/-- The loop so far: the bytes read from the control connection, the client's requests
acted on, the blocks of the transmit loop, and the datagrams sent. -/
structure Loop where
  handler : Handler
  flow : Flow
  bytes : List UInt8
  acted : List Retransmission
  originals : List Nat
  sent : List (List UInt8)

def Loop.start (h : Handler) : Loop := ⟨h, .next, [], [], [], []⟩

def Loop.step (order : ByteOrder) (param : Parameter) (s : Loop) (input : Input) : Option Loop :=
  if s.flow = .next ∧ Readable input.read s.handler then
    let turn := handlerTurn order param input s.handler
    some ⟨turn.handler, turn.flow, s.bytes ++ input.read.bytes, s.acted ++ turn.acted.toList,
      s.originals ++ turn.original.toList, s.sent ++ turn.sent⟩
  else none

def Input.idle : Input := ⟨0, .nothing, .ok, 0, 0, 0⟩

def threeBlocks : Parameter := ⟨1, 3, 0, 0, 1, 1, 1, 1, 15⟩

section Spec
variable {order : ByteOrder} {param : Parameter} {input : Input}

structure SameTurn (turn turn' : Turn) : Prop where
  acted : turn'.acted = turn.acted
  original : turn'.original = turn.original
  datagram : turn'.datagram = turn.datagram
  delivered : turn'.delivered = turn.delivered
  block : turn'.handler.xfer.block = turn.handler.xfer.block
  builder : turn'.handler.xfer.builder = turn.handler.xfer.builder

@[simp] theorem ByteOrder.bytes_length (order : ByteOrder) (n : Nat) : (order.bytes n).length = 4 := by
  cases order <;> simp [ByteOrder.bytes]

theorem decode_fakeReport {memory : List UInt8} (h : memory.length = sizeofRetransmission) :
    Retransmission.decode (fakeReport memory) = ⟨requestErrorRate, 0, 100000⟩ := by
  have hpad : ((memory.drop 2).take 2).length = 2 := by simp [h, sizeofRetransmission]
  exact Retransmission.decode_fields (r := ⟨requestErrorRate, 0, 100000⟩)
    ⟨by decide, by decide, by decide⟩ hpad

theorem fakeReport_length {memory : List UInt8} (h : memory.length = sizeofRetransmission) :
    (fakeReport memory).length = sizeofRetransmission := by
  simp [fakeReport, h, sizeofRetransmission]

theorem convertInPlace_length {memory : List UInt8} (h : memory.length = sizeofRetransmission) :
    (convertInPlace order memory).length = sizeofRetransmission := by
  simp [convertInPlace, h, sizeofRetransmission]

theorem finish_keeps {p : Turn → Prop} {turn : Turn}
    (hcounted : ∀ count slept, p { turn with
      handler := { turn.handler with deadconnectionCounter := count }
      slept := slept })
    (hreported : p (reportLost order param input
      { turn with handler := { turn.handler with deadconnectionCounter := 0 } })) :
    p (finish order param input turn) := by
  have hsame : p turn := hcounted _ _
  unfold finish
  split
  · exact hsame
  · split
    · exact hsame
    · unfold heartbeat
      dsimp only
      split
      · split
        · exact hcounted _ _
        · exact hreported
      · exact hcounted _ _

variable (order param input) in
theorem reportLost_handler (turn : Turn) :
    (reportLost order param input turn).handler = { turn.handler with
      lasthblostreport := input.reportTime
      xfer := (ttpAcceptRetransmit param input.send
        (.decode (fakeReport turn.handler.retransmission)) turn.handler.xfer).xfer
      retransmission := convertInPlace order (fakeReport turn.handler.retransmission) } := by
  unfold reportLost
  dsimp only
  split <;> rfl

variable (order param input) in
theorem reportLost_flow (turn : Turn) :
    (reportLost order param input turn).flow = .next ∨
      (reportLost order param input turn).flow = .timeout := by
  unfold reportLost
  dsimp only
  split
  · exact Or.inr rfl
  · exact Or.inl rfl

variable (order param input) in
theorem sameTurn_reportLost (turn : Turn)
    (h : turn.handler.retransmission.length = sizeofRetransmission) :
    SameTurn turn (reportLost order param input turn) := by
  unfold reportLost sleep
  simp only [decode_fakeReport h]
  unfold ttpAcceptRetransmit
  rw [if_pos rfl]
  dsimp only
  split <;> exact ⟨rfl, rfl, rfl, rfl, rfl, rfl⟩

variable (order param input) in
theorem sameTurn_finish (turn : Turn)
    (h : turn.handler.retransmission.length = sizeofRetransmission) :
    SameTurn turn (finish order param input turn) := by
  refine finish_keeps (fun count slept => ⟨rfl, rfl, rfl, rfl, rfl, rfl⟩) ?_
  obtain ⟨h1, h2, h3, h4, h5, h6⟩ := sameTurn_reportLost order param input
    { turn with handler := { turn.handler with deadconnectionCounter := 0 } } h
  exact ⟨h1, h2, h3, h4, h5, h6⟩

def buffered (input : Input) (h : Handler) : List UInt8 :=
  h.retransmission.take h.retransmitlen ++ input.read.bytes

theorem readRequest_some {read : Read} {h h' : Handler} (hread : readRequest read h = some h') :
    ∃ again, h' = { h with
      retransmission := h.retransmission.take h.retransmitlen ++ read.bytes ++
        h.retransmission.drop (h.retransmitlen + read.bytes.length)
      retransmitlen := h.retransmitlen + read.bytes.length
      again := again } := by
  have hsame : h.retransmission.take h.retransmitlen ++ [] ++
      h.retransmission.drop (h.retransmitlen + 0) = h.retransmission := by
    simp
  cases read with
  | data bytes =>
    cases hread
    exact ⟨h.again, rfl⟩
  | nothing =>
    cases hread
    refine ⟨true, ?_⟩
    simp only [Read.bytes, List.length_nil, hsame]
    rfl
  | closed =>
    dsimp only [readRequest] at hread
    split at hread
    · cases hread
      refine ⟨h.again, ?_⟩
      simp only [Read.bytes, List.length_nil, hsame]
      rfl
    · cases hread
  | failed => cases hread

/-- The pass either ends the process, acts on a complete request, or sends the next
block while a request is incomplete. -/
inductive Pass (order : ByteOrder) (param : Parameter) (input : Input) (h : Handler) (turn : Turn) :
    Prop
  | exited (flow : turn.flow = .exit) (acted : turn.acted = none) (original : turn.original = none)
      (datagram : turn.datagram = none) (bytes : input.read.bytes = [])
      (xfer : turn.handler.xfer = h.xfer)
  | stopped (complete : (buffered input h).length = sizeofRetransmission)
      (stop : (Retransmission.decode (buffered input h)).requestType = requestStop)
      (flow : turn.flow = .stop) (acted : turn.acted = some (.decode (buffered input h)))
      (original : turn.original = none) (datagram : turn.datagram = none)
      (xfer : turn.handler.xfer = h.xfer)
  | requested (complete : (buffered input h).length = sizeofRetransmission)
      (request : (Retransmission.decode (buffered input h)).requestType ≠ requestStop)
      (flow : turn.flow = .next)
      (acted : turn.acted = some (.decode (buffered input h))) (original : turn.original = none)
      (xfer : turn.handler.xfer = (ttpAcceptRetransmit param input.send
        (.decode (buffered input h)) h.xfer).xfer)
      (datagram : turn.datagram = (ttpAcceptRetransmit param input.send
        (.decode (buffered input h)) h.xfer).datagram)
      (empty : turn.handler.retransmitlen = 0)
  | transmitted (incomplete : (buffered input h).length < sizeofRetransmission)
      (flow : turn.flow = .next ∨ turn.flow = .timeout) (acted : turn.acted = none)
      (original : turn.original = some (nextBlock param h.xfer))
      (block : turn.handler.xfer.block = nextBlock param h.xfer)
      (builder : turn.handler.xfer.builder = buildNext param h.xfer)
      (datagram : turn.datagram = some (outgoing param (buildNext param h.xfer)))
      (len : turn.handler.retransmitlen = (buffered input h).length)

theorem finish_flow {turn : Turn} (h : turn.flow = .next) :
    (finish order param input turn).flow = .next ∨ (finish order param input turn).flow = .timeout :=
  finish_keeps (p := fun turn => turn.flow = .next ∨ turn.flow = .timeout)
    (fun _ _ => Or.inl h) (reportLost_flow order param input _)

theorem finish_sent (h : Handler) :
    finish order param input (transmitBlock param .ok h) =
      heartbeat order param input (transmitBlock param .ok h) := by
  unfold finish
  rw [if_neg (by simp [transmitBlock]), if_neg (by simp [transmitBlock])]

theorem heartbeat_counts {turn : Turn} (h : turn.handler.deadconnectionCounter ≤ 2048) :
    heartbeat order param input turn = sleep param { turn with handler :=
      { turn.handler with
        deadconnectionCounter := wrap32 (turn.handler.deadconnectionCounter + 1) } } := by
  unfold heartbeat
  exact if_neg (by omega)

variable (order param) in
theorem heartbeat_quiet {turn : Turn}
    (htime : usecSince input.checkTime turn.handler.lasthblostreport < 500000) :
    ∃ count slept, heartbeat order param input turn = { turn with
      handler := { turn.handler with deadconnectionCounter := count }
      slept := slept } := by
  unfold heartbeat
  dsimp only
  split
  · exact ⟨0, turn.slept, rfl⟩
  · exact ⟨_, _, rfl⟩

theorem heartbeat_reports {turn : Turn} (hcount : turn.handler.deadconnectionCounter > 2048)
    (htime : ¬usecSince input.checkTime turn.handler.lasthblostreport < 500000) :
    heartbeat order param input turn = reportLost order param input
      { turn with handler := { turn.handler with deadconnectionCounter := 0 } } := by
  unfold heartbeat
  exact (if_pos hcount).trans (if_neg htime)

variable (order param input) in
theorem reportLost_spec (turn : Turn) :
    let reported := reportLost order param input turn
    (¬usecSince input.deltaTime turn.handler.lastfeedback > param.hbTimeout * 1000000 →
      reported.flow = .next) ∧
    reported.acted = turn.acted ∧
    reported.handler.retransmission = convertInPlace order (fakeReport turn.handler.retransmission) ∧
    reported.handler.retransmitlen = turn.handler.retransmitlen := by
  unfold reportLost sleep
  dsimp only
  split
  · rename_i hlate
    exact ⟨fun h => absurd hlate h, rfl, rfl, rfl⟩
  · exact ⟨fun _ => rfl, rfl, rfl, rfl⟩

@[simp] theorem finish_retransmitlen (turn : Turn) :
    (finish order param input turn).handler.retransmitlen = turn.handler.retransmitlen := by
  refine finish_keeps (p := fun after => after.handler.retransmitlen = turn.handler.retransmitlen)
    (fun count slept => rfl) ?_
  rw [reportLost_handler]

variable (input) in
theorem buffered_length {h : Handler} (hlen : h.retransmitlen ≤ h.retransmission.length) :
    (buffered input h).length = h.retransmitlen + input.read.bytes.length := by
  rw [buffered, List.length_append, List.length_take, Nat.min_eq_left hlen]

theorem readable_le {read : Read} {h : Handler} (hread : Readable read h)
    (hlen : h.retransmitlen < sizeofRetransmission) :
    h.retransmitlen + read.bytes.length ≤ sizeofRetransmission := by
  cases read with
  | data bytes => exact hread.2
  | nothing => exact hlen.le
  | closed => exact hlen.le
  | failed => exact hlen.le

theorem pass_complete {h h1 : Handler} (hmem : h1.retransmission.length = sizeofRetransmission)
    (hfull : h1.retransmission = buffered input h) (hxfer : h1.xfer = h.xfer) :
    Pass order param input h
      (finish order param input (handleRequest order param input.now input.send h1)) := by
  have hcomplete : (buffered input h).length = sizeofRetransmission := by rw [← hfull, hmem]
  unfold handleRequest
  dsimp only
  rw [hfull]
  by_cases hstop : (Retransmission.decode (buffered input h)).requestType = requestStop
  · rw [if_pos hstop, finish, if_pos rfl]
    exact .stopped hcomplete hstop rfl rfl rfl rfl hxfer
  · rw [if_neg hstop]
    rw [hxfer]
    exact .requested hcomplete hstop rfl rfl rfl rfl rfl rfl

theorem pass_incomplete {h h1 : Handler} (hmem : h1.retransmission.length = sizeofRetransmission)
    (hlen : h1.retransmitlen = (buffered input h).length)
    (hless : (buffered input h).length < sizeofRetransmission) (hxfer : h1.xfer = h.xfer) :
    Pass order param input h (finish order param input (transmitBlock param input.send h1)) := by
  obtain ⟨hacted, horiginal, hdatagram, -, hblock, hbuilder⟩ := sameTurn_finish order param input
    (transmitBlock param input.send h1) hmem
  refine .transmitted hless (finish_flow rfl) hacted ?_ ?_ ?_ ?_ ?_
  · rw [horiginal, ← hxfer]
    rfl
  · rw [hblock, ← hxfer]
    rfl
  · rw [hbuilder, ← hxfer]
    rfl
  · rw [hdatagram, ← hxfer]
    rfl
  · rw [finish_retransmitlen, ← hlen]
    rfl

structure Ready (h : Handler) : Prop where
  memory : h.retransmission.length = sizeofRetransmission
  room : h.retransmitlen < sizeofRetransmission

theorem ready_start {xfer : Transfer} {memory : List UInt8}
    (hmem : memory.length = sizeofRetransmission) (start : Int) (again : Bool) :
    Ready (.start xfer memory start again) :=
  ⟨hmem, Nat.succ_pos _⟩

variable (order param) in
theorem handlerTurn_pass {h : Handler} (hready : Ready h) (hread : Readable input.read h) :
    Pass order param input h (handlerTurn order param input h) := by
  have hmem := hready.memory
  have hroom := readable_le hread hready.room
  have hbuf := buffered_length input (h := h) (by omega)
  unfold handlerTurn
  cases hr : readRequest input.read (pace input.now h) with
  | none =>
    dsimp only
    rw [hr]
    refine .exited rfl rfl rfl rfl ?_ rfl
    cases hb : input.read with
    | data bytes =>
      rw [hb] at hr
      cases hr
    | nothing => rfl
    | closed => rfl
    | failed => rfl
  | some h1 =>
    dsimp only
    rw [hr]
    obtain ⟨again, rfl⟩ := readRequest_some hr
    have hmem1 : (h.retransmission.take h.retransmitlen ++ input.read.bytes ++
        h.retransmission.drop (h.retransmitlen + input.read.bytes.length)).length
        = sizeofRetransmission := by
      simp only [List.length_append, List.length_take, List.length_drop]
      omega
    dsimp only [pace]
    by_cases hfull : h.retransmitlen + input.read.bytes.length = sizeofRetransmission
    · rw [if_pos hfull]
      refine pass_complete hmem1 ?_ rfl
      dsimp only
      rw [List.drop_eq_nil_of_le (by omega), List.append_nil, buffered]
    · rw [if_neg hfull, if_pos (by omega)]
      exact pass_incomplete hmem1 hbuf.symm (by omega) rfl

theorem finish_memory {turn : Turn}
    (h : turn.handler.retransmission.length = sizeofRetransmission) :
    (finish order param input turn).handler.retransmission.length = sizeofRetransmission := by
  refine finish_keeps (p := fun after => after.handler.retransmission.length = sizeofRetransmission)
    (fun count slept => h) ?_
  rw [reportLost_handler]
  exact convertInPlace_length (fakeReport_length h)

theorem readRequest_memory {h h1 : Handler} (hready : Ready h) (hread : Readable input.read h)
    (hr : readRequest input.read h = some h1) : h1.retransmission.length = sizeofRetransmission := by
  have hmem := hready.memory
  have hroom := readable_le hread hready.room
  obtain ⟨again, rfl⟩ := readRequest_some hr
  simp only [List.length_append, List.length_take, List.length_drop]
  omega

variable (order param) in
theorem handlerTurn_complete {h : Handler} (hready : Ready h)
    (hfull : (buffered input h).length = sizeofRetransmission) :
    ∃ again, handlerTurn order param input h = finish order param input
      (handleRequest order param input.now input.send { pace input.now h with
        retransmission := buffered input h
        retransmitlen := sizeofRetransmission
        again := again }) := by
  have hmem := hready.memory
  have hroom := hready.room
  have hbuf := buffered_length input (h := h) (by omega)
  have hbehind : h.retransmission.drop (h.retransmitlen + input.read.bytes.length) = [] :=
    List.drop_eq_nil_of_le (by omega)
  unfold handlerTurn
  cases hr : readRequest input.read (pace input.now h) with
  | none =>
    cases hb : input.read with
    | data bytes =>
      rw [hb] at hr
      cases hr
    | nothing =>
      rw [hb] at hr
      cases hr
    | closed =>
      rw [hb] at hbuf
      exact absurd (hbuf.symm.trans hfull) (by dsimp only [Read.bytes, List.length_nil]; omega)
    | failed =>
      rw [hb] at hbuf
      exact absurd (hbuf.symm.trans hfull) (by dsimp only [Read.bytes, List.length_nil]; omega)
  | some h1 =>
    dsimp only
    rw [hr]
    obtain ⟨again, rfl⟩ := readRequest_some hr
    refine ⟨again, ?_⟩
    dsimp only [pace]
    rw [if_pos (by omega), hbehind, List.append_nil, ← hbuf, hfull]
    rfl

variable (order param) in
theorem handlerTurn_delivered {h : Handler} (hready : Ready h)
    (hfull : (buffered input h).length = sizeofRetransmission) (hsend : input.send = .ok)
    (hstop : (Retransmission.decode (buffered input h)).requestType ≠ requestStop) :
    (handlerTurn order param input h).delivered = true := by
  obtain ⟨again, hturn⟩ := handlerTurn_complete order param hready hfull
  have hmem : (convertInPlace order (buffered input h)).length = sizeofRetransmission :=
    convertInPlace_length hfull
  rw [hturn, hsend]
  unfold handleRequest
  dsimp only
  rw [if_neg hstop]
  exact (sameTurn_finish order param input _ hmem).delivered.trans rfl

variable (order param) in
theorem handlerTurn_acted {h : Handler} (hready : Ready h) (hread : Readable input.read h)
    (hcomplete : (buffered input h).length = sizeofRetransmission) :
    (handlerTurn order param input h).acted = some (.decode (buffered input h)) := by
  have hroom := hready.room
  have hbuf := buffered_length input (h := h) (by rw [hready.memory]; omega)
  cases handlerTurn_pass order param hready hread with
  | exited _ _ _ _ bytes =>
    rw [bytes, List.length_nil] at hbuf
    omega
  | stopped _ _ _ acted => exact acted
  | requested _ _ _ acted => exact acted
  | transmitted incomplete => omega

theorem handlerTurn_memory {h : Handler} (hready : Ready h) (hread : Readable input.read h) :
    (handlerTurn order param input h).handler.retransmission.length = sizeofRetransmission := by
  unfold handlerTurn
  dsimp only
  split
  · exact hready.memory
  · rename_i h1 hr
    have hmem := readRequest_memory (h := pace input.now h) ⟨hready.memory, hready.room⟩ hread hr
    apply finish_memory
    split
    · unfold handleRequest
      dsimp only
      split
      · exact hmem
      · exact convertInPlace_length hmem
    · split <;> exact hmem

variable (order param input) in
theorem handlerTurn_nothing {h : Handler} (hready : Ready h) (hread : input.read = .nothing) :
    handlerTurn order param input h = finish order param input
      (transmitBlock param input.send { pace input.now h with again := true }) := by
  have hroom := hready.room
  unfold handlerTurn
  rw [hread]
  dsimp only [readRequest]
  rw [if_neg (by dsimp only [pace]; omega), if_pos (by dsimp only [pace]; omega)]

variable (order param) in
theorem handlerTurn_ready {h : Handler} (hready : Ready h) (hread : Readable input.read h)
    (hflow : (handlerTurn order param input h).flow = .next) :
    Ready (handlerTurn order param input h).handler := by
  refine ⟨handlerTurn_memory hready hread, ?_⟩
  cases handlerTurn_pass order param hready hread with
  | exited flow => rw [hflow] at flow; cases flow
  | stopped _ _ flow => rw [hflow] at flow; cases flow
  | requested _ _ _ _ _ _ _ empty => rw [empty]; exact Nat.succ_pos _
  | transmitted incomplete _ _ _ _ _ _ len => rw [len]; exact incomplete

variable (order param) in
theorem step_eq {s : Loop} (hflow : s.flow = .next) (hread : Readable input.read s.handler) :
    Loop.step order param s input = some
      ⟨(handlerTurn order param input s.handler).handler,
        (handlerTurn order param input s.handler).flow, s.bytes ++ input.read.bytes,
        s.acted ++ (handlerTurn order param input s.handler).acted.toList,
        s.originals ++ (handlerTurn order param input s.handler).original.toList,
        s.sent ++ (handlerTurn order param input s.handler).sent⟩ :=
  if_pos ⟨hflow, hread⟩

theorem step_some {s s' : Loop} (hs : Loop.step order param s input = some s') :
    s.flow = .next ∧ Readable input.read s.handler ∧
      s' = ⟨(handlerTurn order param input s.handler).handler,
        (handlerTurn order param input s.handler).flow, s.bytes ++ input.read.bytes,
        s.acted ++ (handlerTurn order param input s.handler).acted.toList,
        s.originals ++ (handlerTurn order param input s.handler).original.toList,
        s.sent ++ (handlerTurn order param input s.handler).sent⟩ := by
  unfold Loop.step at hs
  split at hs
  · rename_i hok
    exact ⟨hok.1, hok.2, (Option.some.inj hs).symm⟩
  · cases hs

theorem ready_step {s s' : Loop} (h : s.flow = .next → Ready s.handler)
    (hs : Loop.step order param s input = some s') : s'.flow = .next → Ready s'.handler := by
  obtain ⟨hflow, hread, rfl⟩ := step_some hs
  exact handlerTurn_ready order param (h hflow) hread

end Spec

end TsunamiUdp.Server
